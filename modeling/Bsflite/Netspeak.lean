import Bsflite.CString
import Bsflite.Text

/-!
# Bsflite.Netspeak

`undo_netspeak` with its memory: a first pass counts the size of the result,
going from space to space, and a second pass builds it in a block of that
size, going from character to character.

* `cleanWord`, `cleanWords` — what the filter is meant to do to a word and to
  a text.
* `newlenLoop_eq` — the first pass counts the length of that.
* `undoNetspeak_eq` — the second pass writes that.
* `cleanLoop_holds` — it stays inside the block.
* `netspeak_filter` — the block is filled exactly.
-/

namespace Bsflite

/-! ## what is meant -/

/-- Does the rest of a word let the entry in front of it stand for itself? -/
def endsClean (rest : Str) : Bool :=
  match rest with
  | [] => true
  | c :: _ => c = 46 ∨ c = 44 ∨ c = 63 ∨ c = 33

/-- The entry for a word. -/
def wordEntry (word : Str) : Option WordTable :=
  table.find? fun w => w.orig.isPrefixOf word ∧ endsClean (word.drop w.orig.length)

/-- A word with the entry in front of it replaced. -/
def cleanWord (word : Str) : Str :=
  match wordEntry word with
  | some w => w.clean ++ word.drop w.orig.length
  | none => word

/-- A text with its words cleaned. -/
def cleanWords (text : Str) : Str := [32].intercalate ((text.splitOn 32).map cleanWord)

/-! ## the first pass -/

/-- The characters that end a word in memory. -/
def endsByte (c : UInt8) : Bool := c = 32 ∨ c = 0 ∨ c = 46 ∨ c = 44 ∨ c = 63 ∨ c = 33

/-- The loop over the table in the first pass. -/
def matchWord (mem : List UInt8) (spcptr : Nat) : List WordTable → Except Fault (Option WordTable)
  | [] => return none
  | w :: rest => do
    if ← comparesAt id mem spcptr w.orig then
      let c ← peek mem (spcptr + w.orig.length)
      if endsByte c then return some w else matchWord mem spcptr rest
    else matchWord mem spcptr rest

/-- The first pass: `newlen` at the word at `spcptr`. -/
def newlenLoop (orig : Str) : Nat → Nat → Int → Except Fault Int
  | 0, _, _ => .error .hang
  | fuel + 1, spcptr, newlen => do
    let newlen := match ← matchWord (terminated orig) spcptr table with
      | some w => newlen + (w.clean.length - w.orig.length)
      | none => newlen
    match ← strchr (terminated orig) spcptr 32 with
    | none => return newlen
    | some i => newlenLoop orig fuel (i + 1) newlen

/-! ## the second pass -/

/-- `strncat(cleaned, &orig[x], 1)` -/
def strncatOne (cleaned : List UInt8) (orig : Str) (x : Nat) : Except Fault (List UInt8) := do
  let c ← peek (terminated orig) x
  strcat cleaned (if c = 0 then [] else [c])

/-- The loop over the table in the second pass. -/
def findWordAt (orig : Str) (x : Nat) : List WordTable → Except Fault (Option WordTable)
  | [] => return none
  | w :: rest => do
    if orig.length < x + w.orig.length then findWordAt orig x rest
    else
      let c ← peek (terminated orig) (x + w.orig.length)
      if endsByte c then
        if ← comparesAt id (terminated orig) x w.orig then return some w
        else findWordAt orig x rest
      else findWordAt orig x rest

/-- `x > 0` and `orig[x - 1] != ' '` -/
def insideWord (orig : Str) (x : Nat) : Except Fault Bool := do
  if 0 < x then
    let c ← peek (terminated orig) (x - 1)
    return c ≠ 32
  else return false

/-- The second pass, from index `x` on. -/
def cleanLoop (orig : Str) : Nat → Nat → List UInt8 → Except Fault (List UInt8)
  | 0, _, _ => .error .hang
  | fuel + 1, x, cleaned =>
    if x < orig.length then do
      if ← insideWord orig x then
        let cleaned ← strncatOne cleaned orig x
        cleanLoop orig fuel (x + 1) cleaned
      else
        match ← findWordAt orig x table with
        | some w =>
          let cleaned ← strcat cleaned w.clean
          cleanLoop orig fuel (x + (w.orig.length - 1) + 1) cleaned
        | none =>
          let cleaned ← strncatOne cleaned orig x
          cleanLoop orig fuel (x + 1) cleaned
    else return cleaned

/-- `undo_netspeak`, with what `malloc` gives for a size. -/
def undoNetspeakBlock (malloc : (n : Nat) → Vector UInt8 n) (orig : Str) :
    Except Fault (List UInt8) := do
  let newlen ← newlenLoop orig (orig.length + 1) 0 orig.length
  let cleaned ← storeN (malloc (newlen + 1).toNat).toList 0 [0]
  cleanLoop orig (orig.length + 1) 0 cleaned

example : undoNetspeakBlock (fun n => Vector.replicate n 255) (ascii "u r, idk") =
    .ok (terminated (ascii "you are, I don't know")) := by decide +kernel

/-! ## words -/

/-- An entry is a word, and can be written. -/
structure WordTable.Plain (w : WordTable) : Prop where
  ne_nil : w.orig ≠ []
  no_blank : 32 ∉ w.orig
  orig_no_nul : 0 ∉ w.orig
  clean_no_nul : 0 ∉ w.clean

theorem table_plain : ∀ w ∈ table, w.Plain := by
  have hall : ∀ w ∈ table, w.orig ≠ [] ∧ 32 ∉ w.orig ∧ 0 ∉ w.orig ∧ 0 ∉ w.clean := by
    decide +kernel
  exact fun w hw => ⟨(hall w hw).1, (hall w hw).2.1, (hall w hw).2.2.1, (hall w hw).2.2.2⟩

/-- A text is a word, or a word, a blank and a text. -/
theorem word_induction {motive : Str → Prop} (last : ∀ word, 32 ∉ word → motive word)
    (cons : ∀ word rest, 32 ∉ word → motive rest → motive (word ++ 32 :: rest)) (text : Str) :
    motive text := by
  induction hn : text.length using Nat.strong_induction_on generalizing text with
  | _ n ih =>
      by_cases hmem : 32 ∈ text
      · obtain ⟨word, rest, rfl, hword⟩ := List.eq_append_cons_of_mem hmem
        refine cons word rest hword (ih rest.length ?_ rest rfl)
        rw [List.length_append, List.length_cons] at hn
        omega
      · exact last text hmem

theorem splitOn_word {word : Str} (h : 32 ∉ word) : word.splitOn 32 = [word] := by
  rw [List.splitOn_eq_splitOnP]
  refine List.splitOnP_eq_singleton fun c hc => beq_false_of_ne ?_
  rintro rfl
  exact h hc

theorem splitOn_word_cons {word : Str} (h : 32 ∉ word) (rest : Str) :
    (word ++ 32 :: rest).splitOn 32 = word :: rest.splitOn 32 := by
  rw [List.splitOn_eq_splitOnP]
  refine List.splitOnP_append_cons_of_forall_mem (fun c hc => beq_false_of_ne ?_) 32 rfl rest
  rintro rfl
  exact h hc

theorem cleanWords_word {word : Str} (h : 32 ∉ word) : cleanWords word = cleanWord word := by
  rw [cleanWords, splitOn_word h, List.map_singleton, List.intercalate_singleton]

theorem cleanWords_cons {word : Str} (h : 32 ∉ word) (rest : Str) :
    cleanWords (word ++ 32 :: rest) = cleanWord word ++ 32 :: cleanWords rest := by
  rw [cleanWords, splitOn_word_cons h, List.map_cons, List.intercalate_cons_of_ne_nil,
    List.append_assoc]
  · rfl
  · exact mt List.map_eq_nil_iff.mp (List.splitOn_ne_nil 32 rest)

/-- What may follow a word: the end of the text, or a blank. -/
def Ends (rest : Str) : Prop := ∀ c, rest.head? = some c → c = 32

theorem ends_nil : Ends [] := fun _ hc => nomatch hc

theorem ends_blank (rest : Str) : Ends (32 :: rest) := fun _ hc => (Option.some.inj hc).symm

/-- An entry is in front of a word exactly when it is in front of the text. -/
theorem isPrefixOf_word {pat word rest : Str} (hpat : 32 ∉ pat) (hrest : Ends rest) :
    pat.isPrefixOf (word ++ rest) = pat.isPrefixOf word := by
  induction pat generalizing word with
  | nil => rfl
  | cons p pat ih =>
      rw [List.mem_cons, not_or] at hpat
      cases word with
      | cons c word =>
          rw [List.cons_append, List.isPrefixOf_cons_cons, List.isPrefixOf_cons_cons, ih hpat.2]
      | nil =>
          cases rest with
          | nil => rfl
          | cons c rest =>
              have hc := hrest c rfl
              rw [List.nil_append, List.isPrefixOf_cons_cons, hc, beq_false_of_ne (Ne.symm hpat.1),
                Bool.false_and]
              rfl

/-- What ends a word in the text is what ends it by itself. -/
theorem endsWord_word {word rest : Str} (hword : 32 ∉ word) (hrest : Ends rest) {n : Nat}
    (hn : n ≤ word.length) : endsWord (word ++ rest)[n]? = endsClean (word.drop n) := by
  by_cases hlt : n < word.length
  · have hne : word[n] ≠ 32 := by
      intro heq
      exact hword (heq ▸ List.getElem_mem hlt)
    rw [List.getElem?_append_left hlt, List.getElem?_eq_getElem hlt,
      List.drop_eq_getElem_cons hlt]
    simp [endsWord, endsClean, hne]
  · have hend : n = word.length := by omega
    rw [hend, List.getElem?_append_right (Nat.le_refl _), Nat.sub_self, List.drop_length,
      ← List.head?_eq_getElem?]
    cases rest with
    | nil => rfl
    | cons c rest =>
        rw [List.head?_cons, hrest c rfl]
        rfl

/-- The terminator ends a word, as the end of the text does. -/
theorem endsByte_getD {s : Str} (hs : 0 ∉ s) (i : Nat) :
    endsByte (s[i]?.getD 0) = endsWord s[i]? := by
  cases hc : s[i]? with
  | none => rfl
  | some c =>
      have hne : c ≠ 0 := by
        rintro rfl
        exact hs (List.mem_of_getElem? hc)
      simp [endsByte, endsWord, hne]

/-- The entry that the second pass looks for is that of the word. -/
theorem findWord_word {word rest : Str} (hword : 32 ∉ word) (hrest : Ends rest) :
    findWord (word ++ rest) = wordEntry word := by
  rw [findWord, wordEntry]
  refine List.find?_congr fun w hw => ?_
  have hplain := table_plain w hw
  rw [isPrefixOf_word hplain.no_blank hrest]
  by_cases hfront : w.orig.isPrefixOf word = true
  · have hlen := (List.isPrefixOf_iff_prefix.mp hfront).length_le
    have hfits : w.orig.length ≤ (word ++ rest).length := by
      rw [List.length_append]
      omega
    rw [endsWord_word hword hrest hlen]
    exact decide_eq_decide.mpr ⟨fun h => ⟨h.2.2, h.2.1⟩, fun h => ⟨hfits, h.2, h.1⟩⟩
  · exact decide_eq_decide.mpr ⟨fun h => absurd h.2.2 hfront, fun h => absurd h.1 hfront⟩

/-- What is found is in the table, and in front of the word. -/
theorem wordEntry_some {word : Str} {w : WordTable} (h : wordEntry word = some w) :
    w ∈ table ∧ w.orig <+: word := by
  have hfound := List.find?_some h
  exact ⟨List.mem_of_find?_eq_some h, List.isPrefixOf_iff_prefix.mp (of_decide_eq_true hfound).1⟩

theorem findWord_some {s : Str} {w : WordTable} (h : findWord s = some w) :
    w ∈ table ∧ w.orig <+: s := by
  have hfound := List.find?_some h
  exact ⟨List.mem_of_find?_eq_some h,
    List.isPrefixOf_iff_prefix.mp (of_decide_eq_true hfound).2.2⟩

/-- No entry stands in front of nothing. -/
theorem wordEntry_nil : wordEntry [] = none := by decide +kernel

/-! ## the tables in memory -/

/-- The loop of the first pass over the table, at the start of a word. -/
theorem matchWord_eq {orig word rest : Str} {i : Nat} (hi : i ≤ orig.length)
    (hdrop : orig.drop i = word ++ rest) (hnul : 0 ∉ orig) (hword : 32 ∉ word)
    (hrest : Ends rest) : matchWord (terminated orig) i table = .ok (wordEntry word) := by
  have hloop (tbl : List WordTable) (htbl : ∀ w ∈ tbl, w.Plain) :
      matchWord (terminated orig) i tbl = .ok (tbl.find? fun w =>
        w.orig.isPrefixOf word ∧ endsClean (word.drop w.orig.length)) := by
    induction tbl with
    | nil => rfl
    | cons w tbl ih =>
        have hplain := htbl w List.mem_cons_self
        have hih := ih fun v hv => htbl v (List.mem_cons_of_mem w hv)
        rw [matchWord, comparesAt_isPrefixOf hplain.orig_no_nul hi, ok_bind, hdrop,
          isPrefixOf_word hplain.no_blank hrest]
        by_cases hfront : w.orig.isPrefixOf word = true
        · have hlen := (List.isPrefixOf_iff_prefix.mp hfront).length_le
          have hin : i + w.orig.length ≤ orig.length := by
            have hl := congrArg List.length hdrop
            rw [List.length_drop, List.length_append] at hl
            omega
          rw [if_pos hfront, peek_terminated_getD hin, ok_bind, endsByte_getD hnul,
            ← List.getElem?_drop, hdrop, endsWord_word hword hrest hlen, hih]
          by_cases hends : endsClean (word.drop w.orig.length) = true
          · rw [if_pos hends, List.find?_cons_of_pos (by simp [hfront, hends])]
            rfl
          · rw [if_neg hends, List.find?_cons_of_neg (by simp [hends])]
        · rw [if_neg hfront, hih, List.find?_cons_of_neg (by simp [hfront])]
  exact hloop table table_plain

/-- The loop of the second pass over the table. -/
theorem findWordAt_eq {orig : Str} (hnul : 0 ∉ orig) {x : Nat} (hx : x ≤ orig.length) :
    findWordAt orig x table = .ok (findWord (orig.drop x)) := by
  have hloop (tbl : List WordTable) (htbl : ∀ w ∈ tbl, w.Plain) :
      findWordAt orig x tbl = .ok (tbl.find? fun w => w.orig.length ≤ (orig.drop x).length ∧
        endsWord (orig.drop x)[w.orig.length]? ∧ w.orig.isPrefixOf (orig.drop x)) := by
    induction tbl with
    | nil => rfl
    | cons w tbl ih =>
        have hplain := htbl w List.mem_cons_self
        have hih := ih fun v hv => htbl v (List.mem_cons_of_mem w hv)
        rw [findWordAt, hih]
        by_cases hlong : orig.length < x + w.orig.length
        · rw [if_pos hlong, List.find?_cons_of_neg]
          rw [decide_eq_true_eq, List.length_drop]
          omega
        · have hfits : w.orig.length ≤ (orig.drop x).length := by
            rw [List.length_drop]
            omega
          rw [if_neg hlong, peek_terminated_getD (Nat.not_lt.mp hlong), ok_bind,
            endsByte_getD hnul, ← List.getElem?_drop, comparesAt_isPrefixOf hplain.orig_no_nul hx,
            ok_bind]
          by_cases hends : endsWord (orig.drop x)[w.orig.length]? = true
          · rw [if_pos hends]
            by_cases hfront : w.orig.isPrefixOf (orig.drop x) = true
            · rw [if_pos hfront, List.find?_cons_of_pos]
              · rfl
              · exact decide_eq_true ⟨hfits, hends, hfront⟩
            · rw [if_neg hfront, List.find?_cons_of_neg]
              exact fun h => hfront (of_decide_eq_true h).2.2
          · rw [if_neg hends, List.find?_cons_of_neg]
            exact fun h => hends (of_decide_eq_true h).2.1
  exact hloop table table_plain

/-! ## the size -/

/-- The next blank, or none in the last word. -/
theorem strchr_blank {orig word rest : Str} {i : Nat} (hi : i ≤ orig.length)
    (hdrop : orig.drop i = word ++ rest) (hnul : 0 ∉ orig) (hword : 32 ∉ word)
    (hrest : Ends rest) : strchr (terminated orig) i 32 =
      .ok (if rest = [] then none else some (i + word.length)) := by
  have hsub : word ⊆ orig := by
    intro c hc
    refine List.mem_of_mem_drop (i := i) ?_
    rw [hdrop]
    exact List.mem_append_left rest hc
  rw [strchr, terminated, List.drop_append_of_le_length hi, hdrop, List.append_assoc,
    strchrLoop_word hword fun h => hnul (hsub h)]
  cases rest with
  | nil => rfl
  | cons c rest =>
      rw [hrest c rfl, if_neg (List.cons_ne_nil _ _)]
      rfl

/-- What one word adds to the size. -/
theorem length_cleanWord (word : Str) (newlen : Int) :
    (match wordEntry word with
      | some w => newlen + (w.clean.length - w.orig.length)
      | none => newlen) = newlen + ((cleanWord word).length - word.length) := by
  cases hw : wordEntry word with
  | none =>
      rw [cleanWord, hw]
      dsimp only
      omega
  | some w =>
      have hle := (wordEntry_some hw).2.length_le
      rw [cleanWord, hw]
      dsimp only
      rw [List.length_append, List.length_drop, Nat.cast_add, Nat.cast_sub hle]
      ring

/-- The first pass at a word. -/
theorem newlenLoop_step {orig front word rest : Str} (hnul : 0 ∉ orig)
    (horig : orig = front ++ (word ++ rest)) (hword : 32 ∉ word) (hrest : Ends rest) (fuel : Nat)
    (newlen : Int) :
    newlenLoop orig (fuel + 1) front.length newlen =
      if rest = [] then .ok (newlen + ((cleanWord word).length - word.length))
      else newlenLoop orig fuel (front.length + word.length + 1)
        (newlen + ((cleanWord word).length - word.length)) := by
  have hi : front.length ≤ orig.length := by
    rw [horig, List.length_append]
    omega
  have hdrop : orig.drop front.length = word ++ rest := by
    rw [horig, List.drop_left]
  rw [newlenLoop, matchWord_eq hi hdrop hnul hword hrest, ok_bind, length_cleanWord,
    strchr_blank hi hdrop hnul hword hrest, ok_bind]
  by_cases hnil : rest = []
  · rw [if_pos hnil, if_pos hnil]
    rfl
  · rw [if_neg hnil, if_neg hnil]

/-- The first pass, from a word to the end. -/
theorem newlenLoop_eq {orig : Str} (hnul : 0 ∉ orig) (text : Str) :
    ∀ (front : Str) (fuel : Nat) (newlen : Int), orig = front ++ text → text.length < fuel →
      newlenLoop orig fuel front.length newlen =
        .ok (newlen + ((cleanWords text).length - text.length)) := by
  induction text using word_induction with
  | last word hword =>
      intro front fuel newlen horig hfuel
      obtain ⟨fuel, rfl⟩ := Nat.exists_eq_add_one_of_ne_zero (Nat.ne_zero_of_lt hfuel)
      rw [← List.append_nil word] at horig
      rw [newlenLoop_step hnul horig hword ends_nil, if_pos rfl, cleanWords_word hword]
  | cons word rest hword ih =>
      intro front fuel newlen horig hfuel
      obtain ⟨fuel, rfl⟩ := Nat.exists_eq_add_one_of_ne_zero (Nat.ne_zero_of_lt hfuel)
      have hfront : orig = (front ++ word ++ [32]) ++ rest := by
        rw [horig, List.append_assoc, List.append_assoc]
        rfl
      have hlen : front.length + word.length + 1 = (front ++ word ++ [32]).length := by
        rw [List.length_append, List.length_append, List.length_singleton]
      rw [List.length_append, List.length_cons] at hfuel
      rw [newlenLoop_step hnul horig hword (ends_blank rest), if_neg (List.cons_ne_nil _ _), hlen,
        ih _ fuel _ hfront (by omega), cleanWords_cons hword, List.length_append,
        List.length_append, List.length_cons, List.length_cons]
      congr 1
      omega

/-! ## the result -/

/-- Is the walk inside a word, after the character `prev`? -/
def Midword (prev : Option UInt8) : Prop := prev ≠ none ∧ prev ≠ some 32

instance : DecidablePred Midword := fun _ => inferInstanceAs (Decidable (_ ∧ _))

theorem midword_some {c : UInt8} : Midword (some c) ↔ c ≠ 32 := by simp [Midword]

theorem undoNetspeakLoop_copy {prev : Option UInt8} (hprev : Midword prev) (fuel : Nat)
    (c : UInt8) (rest : Str) :
    undoNetspeakLoop (fuel + 1) prev (c :: rest) = c :: undoNetspeakLoop fuel (some c) rest :=
  if_pos hprev

theorem undoNetspeakLoop_start {prev : Option UInt8} (hprev : ¬ Midword prev) (fuel : Nat)
    (c : UInt8) (rest : Str) :
    undoNetspeakLoop (fuel + 1) prev (c :: rest) =
      match findWord (c :: rest) with
      | some w =>
        w.clean ++ undoNetspeakLoop fuel w.orig.getLast? ((c :: rest).drop w.orig.length)
      | none => c :: undoNetspeakLoop fuel (some c) rest :=
  if_neg hprev

/-- Inside a word, the rest of the word is copied. -/
theorem undoNetspeakLoop_inside {word : Str} (hword : 32 ∉ word) (rest : Str) {fuel : Nat}
    {prev : Option UInt8} (hprev : Midword prev) (hfuel : (word ++ rest).length ≤ fuel) :
    ∃ fuel' prev', rest.length ≤ fuel' ∧
      undoNetspeakLoop fuel prev (word ++ rest) =
        word ++ undoNetspeakLoop fuel' prev' rest := by
  induction word generalizing fuel prev with
  | nil => exact ⟨fuel, prev, hfuel, rfl⟩
  | cons c word ih =>
      rw [List.mem_cons, not_or] at hword
      rw [List.cons_append, List.length_cons] at hfuel
      obtain ⟨fuel, rfl⟩ := Nat.exists_eq_add_one_of_ne_zero (by omega : fuel ≠ 0)
      have hc : Midword (some c) := midword_some.mpr (Ne.symm hword.1)
      obtain ⟨fuel', prev', hle, heq⟩ := ih hword.2 hc (Nat.le_of_succ_le_succ hfuel)
      refine ⟨fuel', prev', hle, ?_⟩
      rw [List.cons_append, undoNetspeakLoop_copy hprev, heq]
      rfl

/-- At the start of a word, the word is cleaned. -/
theorem undoNetspeakLoop_word {word rest : Str} (hword : 32 ∉ word) (hrest : Ends rest)
    {fuel : Nat} {prev : Option UInt8} (hprev : ¬ Midword prev)
    (hfuel : (word ++ rest).length ≤ fuel) :
    ∃ fuel' prev', rest.length ≤ fuel' ∧
      undoNetspeakLoop fuel prev (word ++ rest) =
        cleanWord word ++ undoNetspeakLoop fuel' prev' rest := by
  cases word with
  | nil => exact ⟨fuel, prev, hfuel, by rw [cleanWord, wordEntry_nil]; rfl⟩
  | cons c word =>
      have hfind := findWord_word hword hrest
      rw [List.cons_append, List.length_cons] at hfuel
      rw [List.cons_append] at hfind ⊢
      obtain ⟨fuel, rfl⟩ := Nat.exists_eq_add_one_of_ne_zero (by omega : fuel ≠ 0)
      rw [undoNetspeakLoop_start hprev, hfind, cleanWord]
      cases hw : wordEntry (c :: word) with
      | none =>
          rw [List.mem_cons, not_or] at hword
          have hc : Midword (some c) := midword_some.mpr (Ne.symm hword.1)
          obtain ⟨fuel', prev', hle, heq⟩ :=
            undoNetspeakLoop_inside hword.2 rest hc (Nat.le_of_succ_le_succ hfuel)
          refine ⟨fuel', prev', hle, ?_⟩
          dsimp only
          rw [heq]
          rfl
      | some w =>
          obtain ⟨hmem, hfront⟩ := wordEntry_some hw
          have hplain := table_plain w hmem
          have hle := hfront.length_le
          have hlast : Midword w.orig.getLast? := by
            refine ⟨mt List.getLast?_eq_none_iff.mp hplain.ne_nil, fun h => ?_⟩
            exact hplain.no_blank (List.mem_of_getLast? h)
          have hpos := List.length_pos_of_ne_nil hplain.ne_nil
          have hdrop : (c :: (word ++ rest)).drop w.orig.length =
              (c :: word).drop w.orig.length ++ rest := by
            rw [← List.cons_append, List.drop_append_of_le_length hle]
          have hshort : ((c :: word).drop w.orig.length ++ rest).length ≤ fuel := by
            rw [List.length_append, List.length_drop, List.length_cons]
            rw [List.length_append] at hfuel
            omega
          obtain ⟨fuel', prev', hle', heq⟩ := undoNetspeakLoop_inside
            (fun h => hword (List.mem_of_mem_drop h)) rest hlast hshort
          refine ⟨fuel', prev', hle', ?_⟩
          dsimp only
          rw [hdrop, heq, List.append_assoc]

/-- A blank is copied, and a word starts behind it. -/
theorem undoNetspeakLoop_blank {fuel : Nat} (prev : Option UInt8) (rest : Str)
    (hfuel : (32 :: rest).length ≤ fuel) :
    ∃ fuel', rest.length ≤ fuel' ∧
      undoNetspeakLoop fuel prev (32 :: rest) = 32 :: undoNetspeakLoop fuel' (some 32) rest := by
  rw [List.length_cons] at hfuel
  obtain ⟨fuel, rfl⟩ := Nat.exists_eq_add_one_of_ne_zero (by omega : fuel ≠ 0)
  have hfind : findWord (32 :: rest) = none :=
    (findWord_word (show 32 ∉ ([] : Str) from List.not_mem_nil) (ends_blank rest)).trans
      wordEntry_nil
  refine ⟨fuel, Nat.le_of_succ_le_succ hfuel, ?_⟩
  rw [undoNetspeakLoop, hfind]
  exact ite_self _

/-- The second pass, from the start of a word to the end. -/
theorem undoNetspeakLoop_eq (text : Str) : ∀ {fuel : Nat} {prev : Option UInt8}, ¬ Midword prev →
    text.length ≤ fuel → undoNetspeakLoop fuel prev text = cleanWords text := by
  induction text using word_induction with
  | last word hword =>
      intro fuel prev hprev hfuel
      rw [← List.append_nil word] at hfuel
      obtain ⟨fuel', prev', -, heq⟩ := undoNetspeakLoop_word hword ends_nil hprev hfuel
      rw [List.append_nil] at heq
      rw [heq, cleanWords_word hword]
      cases fuel' <;> exact List.append_nil _
  | cons word rest hword ih =>
      intro fuel prev hprev hfuel
      obtain ⟨fuel', prev', hle', heq⟩ := undoNetspeakLoop_word hword (ends_blank rest) hprev hfuel
      obtain ⟨fuel'', hle'', hblank⟩ := undoNetspeakLoop_blank prev' rest hle'
      rw [heq, hblank, ih (fun h => h.2 rfl) hle'', cleanWords_cons hword]

/-- The second pass cleans the words. -/
theorem undoNetspeak_eq (orig : Str) : undoNetspeak orig = cleanWords orig :=
  undoNetspeakLoop_eq orig (fun h => h.1 rfl) (Nat.le_refl _)

/-! ## the block -/

/-- The second pass looks at the character before. -/
theorem insideWord_eq (front text : Str) :
    insideWord (front ++ text) front.length = .ok (decide (Midword front.getLast?)) := by
  rcases List.eq_nil_or_concat front with rfl | ⟨init, c, rfl⟩
  · rfl
  · have hdrop : (init.concat c ++ text).drop init.length = c :: text := by
      rw [List.concat_eq_append, List.append_assoc, List.drop_left]
      rfl
    rw [insideWord, if_pos (by rw [List.length_concat]; omega), List.length_concat,
      Nat.add_sub_cancel, peek_terminated hdrop, ok_bind, List.concat_eq_append,
      List.getLast?_concat, decide_eq_decide.mpr midword_some]
    rfl

/-- A run leaves `text` in the block it was given. -/
def Fills (run : Except Fault (List UInt8)) (cleaned : List UInt8) (text : Str) : Prop :=
  ∃ cleaned', run = .ok cleaned' ∧ HoldsStr cleaned' text ∧ cleaned'.length = cleaned.length

/-- The block holds what is done, and has room for what comes. -/
structure Holding (cleaned : List UInt8) (done out : Str) : Prop where
  held : HoldsStr cleaned done
  room : done.length + out.length < cleaned.length

theorem Holding.return {cleaned : List UInt8} {done : Str} (h : Holding cleaned done []) :
    Fills (.ok cleaned) cleaned (done ++ []) := by
  rw [List.append_nil]
  exact ⟨cleaned, rfl, h.held, rfl⟩

/-- A piece is written, and then the rest. -/
theorem Holding.bind {cleaned : List UInt8} {done text out : Str} {run : Except Fault (List UInt8)}
    {k : List UInt8 → Except Fault (List UInt8)} (h : Holding cleaned done (text ++ out))
    (hrun : Fills run cleaned (done ++ text))
    (hk : ∀ cleaned', Holding cleaned' (done ++ text) out →
      Fills (k cleaned') cleaned' (done ++ text ++ out)) :
    Fills (run >>= k) cleaned (done ++ (text ++ out)) := by
  obtain ⟨cleaned', rfl, hheld, hlen⟩ := hrun
  have hroom := h.room
  rw [List.length_append] at hroom
  have hrest : Holding cleaned' (done ++ text) out := by
    refine ⟨hheld, ?_⟩
    rw [List.length_append]
    omega
  obtain ⟨cleaned'', hrun', hheld', hlen'⟩ := hk cleaned' hrest
  rw [List.append_assoc] at hheld'
  exact ⟨cleaned'', hrun', hheld', hlen'.trans hlen⟩

/-- An entry is written. -/
theorem Holding.strcat {cleaned : List UInt8} {done text out : Str}
    (h : Holding cleaned done (text ++ out)) (hnul : 0 ∉ text) :
    Fills (strcat cleaned text) cleaned (done ++ text) := by
  have hroom := h.room
  rw [List.length_append] at hroom
  exact h.held.strcat_eq hnul (by omega)

/-- A character is copied. -/
theorem Holding.strncatOne {cleaned : List UInt8} {orig done out rest : Str} {c : UInt8} {x : Nat}
    (h : Holding cleaned done (c :: out)) (hdrop : orig.drop x = c :: rest) (hc : c ≠ 0) :
    Fills (strncatOne cleaned orig x) cleaned (done ++ [c]) := by
  have hnul : 0 ∉ [c] := by
    rw [List.mem_singleton]
    exact Ne.symm hc
  rw [Bsflite.strncatOne, peek_terminated hdrop, ok_bind, if_neg hc]
  exact Holding.strcat (show Holding cleaned done ([c] ++ out) from h) hnul

/-- The second pass at a character: inside a word and where no entry is found
the character is copied. -/
theorem cleanLoop_step {orig front rest : Str} {c : UInt8} (hnul : 0 ∉ orig)
    (horig : orig = front ++ c :: rest) (fuel : Nat) (cleaned : List UInt8) :
    cleanLoop orig (fuel + 1) front.length cleaned =
      (match if Midword front.getLast? then none else findWord (c :: rest) with
      | some w => do
        let cleaned ← strcat cleaned w.clean
        cleanLoop orig fuel (front.length + (w.orig.length - 1) + 1) cleaned
      | none => do
        let cleaned ← strncatOne cleaned orig front.length
        cleanLoop orig fuel (front.length + 1) cleaned) := by
  have hlt : front.length < orig.length := by
    rw [horig, List.length_append, List.length_cons]
    omega
  have hdrop : orig.drop front.length = c :: rest := by
    rw [horig, List.drop_left]
  have hinside : insideWord orig front.length = .ok (decide (Midword front.getLast?)) := by
    rw [horig, insideWord_eq]
  rw [cleanLoop, if_pos hlt, hinside, ok_bind]
  by_cases hprev : Midword front.getLast?
  · rw [if_pos (decide_eq_true hprev), if_pos hprev]
  · rw [if_neg (fun hd => hprev (of_decide_eq_true hd)), if_neg hprev, findWordAt_eq hnul hlt.le,
      ok_bind, hdrop]

/-- So does the walk over the string. -/
theorem undoNetspeakLoop_step (fuel : Nat) (prev : Option UInt8) (c : UInt8) (rest : Str) :
    undoNetspeakLoop (fuel + 1) prev (c :: rest) =
      match if Midword prev then none else findWord (c :: rest) with
      | some w =>
        w.clean ++ undoNetspeakLoop fuel w.orig.getLast? ((c :: rest).drop w.orig.length)
      | none => c :: undoNetspeakLoop fuel (some c) rest := by
  by_cases hprev : Midword prev
  · rw [if_pos hprev, undoNetspeakLoop_copy hprev]
  · rw [if_neg hprev, undoNetspeakLoop_start hprev]

/-- The second pass stays inside the block, and writes what the walk over the
string gives. -/
theorem cleanLoop_holds {orig : Str} (hnul : 0 ∉ orig) (fuel : Nat) :
    ∀ (front text done : Str) (cleaned : List UInt8), orig = front ++ text →
      text.length ≤ fuel →
      Holding cleaned done (undoNetspeakLoop fuel front.getLast? text) →
      Fills (cleanLoop orig (fuel + 1) front.length cleaned) cleaned
        (done ++ undoNetspeakLoop fuel front.getLast? text) := by
  have hend (fuel : Nat) {front done : Str} {cleaned : List UInt8} (horig : orig = front ++ [])
      (h : Holding cleaned done []) :
      Fills (cleanLoop orig (fuel + 1) front.length cleaned) cleaned (done ++ []) := by
    rw [cleanLoop, horig, List.append_nil, if_neg (Nat.lt_irrefl _)]
    exact h.return
  induction fuel with
  | zero =>
      intro front text done cleaned horig hfuel h
      obtain rfl := List.length_eq_zero_iff.mp (Nat.le_zero.mp hfuel)
      exact hend 0 horig h
  | succ fuel ih =>
      intro front text done cleaned horig hfuel h
      cases text with
      | nil => exact hend (fuel + 1) horig h
      | cons c rest =>
          have hdrop : orig.drop front.length = c :: rest := by
            rw [horig, List.drop_left]
          have hc : c ≠ 0 := by
            rintro rfl
            exact hnul (horig ▸ List.mem_append_right front List.mem_cons_self)
          rw [List.length_cons] at hfuel
          rw [cleanLoop_step hnul horig]
          rw [undoNetspeakLoop_step] at h ⊢
          cases hfind : (if Midword front.getLast? then none else findWord (c :: rest)) with
          -- the character is copied, and is the one before the next
          | none =>
              rw [hfind] at h
              dsimp only at h ⊢
              refine Holding.bind (show Holding cleaned done ([c] ++ _) from h)
                (h.strncatOne hdrop hc) fun cleaned' h' => ?_
              have hlast : (front ++ [c]).getLast? = some c := List.getLast?_concat
              have horig' : orig = (front ++ [c]) ++ rest := by
                rw [horig, List.append_assoc]
                rfl
              rw [← hlast] at h' ⊢
              have hnext := ih (front ++ [c]) rest _ cleaned' horig' (by omega) h'
              rwa [List.length_append, List.length_singleton] at hnext
          -- the walk goes on behind the entry, whose last character is no blank
          | some w =>
              rw [hfind] at h
              dsimp only at h ⊢
              have hfound : findWord (c :: rest) = some w := by
                split at hfind
                · cases hfind
                · exact hfind
              obtain ⟨hmem, tail, htail⟩ := findWord_some hfound
              have hplain := table_plain w hmem
              have hpos := List.length_pos_of_ne_nil hplain.ne_nil
              have hlast : (front ++ w.orig).getLast? = w.orig.getLast? :=
                List.getLast?_append_of_ne_nil front hplain.ne_nil
              have horig' : orig = (front ++ w.orig) ++ tail := by
                rw [horig, List.append_assoc, htail]
              have hshort : tail.length ≤ fuel := by
                have hlen := congrArg List.length htail
                rw [List.length_append, List.length_cons] at hlen
                omega
              have hnext : front.length + (w.orig.length - 1) + 1 = (front ++ w.orig).length := by
                rw [List.length_append]
                omega
              rw [← htail, List.drop_left, ← hlast] at h ⊢
              refine h.bind (h.strcat hplain.clean_no_nul) fun cleaned' h' => ?_
              rw [hnext]
              exact ih (front ++ w.orig) tail _ cleaned' horig' hshort h'

/-- The first pass counts the result, the second one fills a block of that
size to its last byte, whatever `malloc` has put there; and the result is the
text with its words cleaned. -/
theorem netspeak_filter (orig : Str) (hnul : 0 ∉ orig) :
    newlenLoop orig (orig.length + 1) 0 orig.length = .ok ((undoNetspeak orig).length : Int) ∧
      (∀ malloc, undoNetspeakBlock malloc orig = .ok (terminated (undoNetspeak orig))) ∧
      undoNetspeak orig = cleanWords orig := by
  have hsize : newlenLoop orig (orig.length + 1) 0 orig.length =
      .ok ((undoNetspeak orig).length : Int) := by
    have heq := newlenLoop_eq hnul orig [] (orig.length + 1) orig.length rfl (Nat.lt_succ_self _)
    rw [List.length_nil] at heq
    rw [heq, undoNetspeak_eq]
    congr 1
    omega
  refine ⟨hsize, fun malloc => ?_, undoNetspeak_eq orig⟩
  rw [undoNetspeakBlock, hsize, ok_bind]
  generalize hblock : (malloc (((undoNetspeak orig).length : Int) + 1).toNat).toList = block
  have hlen : block.length = (undoNetspeak orig).length + 1 := by
    rw [← hblock, Vector.length_toList]
    omega
  obtain ⟨cleaned, hstore, hheld, hlen'⟩ :=
    strcpy_eq (show 0 ∉ ([] : Str) from List.not_mem_nil)
      (show ([] : Str).length < block.length by rw [hlen, List.length_nil]; omega)
  have hroom : Holding cleaned [] (undoNetspeak orig) :=
    ⟨hheld, by rw [hlen', hlen, List.length_nil]; omega⟩
  obtain ⟨out, hrun, hout, hfull⟩ :=
    cleanLoop_holds hnul orig.length [] orig [] cleaned rfl (Nat.le_refl _) hroom
  have hstore' : storeN block 0 [0] = .ok cleaned := hstore
  rw [hstore', ok_bind]
  refine hrun.trans (congrArg Except.ok (hout.eq_terminated ?_))
  rw [hfull, hlen', hlen]
  rfl

theorem netspeak_filter_blanks :
    newlenLoop (ascii "i  c. ur ") 10 0 9 = .ok ((undoNetspeak (ascii "i  c. ur ")).length : Int) ∧
      (∀ malloc, undoNetspeakBlock malloc (ascii "i  c. ur ") =
        .ok (terminated (undoNetspeak (ascii "i  c. ur ")))) ∧
      undoNetspeak (ascii "i  c. ur ") = cleanWords (ascii "i  c. ur ") :=
  netspeak_filter (ascii "i  c. ur ") (by decide +kernel)

end Bsflite
