import Bsflite.WordWrap

/-!
# Bsflite.Prettyprint

`prettyprint` and `prettyprint_echostr` of `out.c`: a text is cut at its
newlines, and each piece goes to `wordwrap_print` or `wordwrap_print_echostr`.
The two have one loop, written once for what is done with a piece.

* `segments` — the pieces, as they should be.
* `prettyLoop_eq` — the loop hands over the segments, whatever is done with
  them.
* `prettyprint_segments` — both functions end, and lose no character.
-/

namespace Bsflite

/-! ## the loop -/

/-- The inner loop over `x`: what is printed of the piece at `pos`, and `x`
behind the loop. -/
def prettySegment (print : Bool → Str → Except Fault (List Shown))
    (malloc : (n : Nat) → Vector UInt8 n) (ptext : List UInt8) (pos : Nat) :
    Nat → Nat → Except Fault (List Shown × Nat)
  | 0, _ => .error .hang
  | fuel + 1, x => do
    let len ← bufLen ptext
    if x < len then
      if x = len - 1 then
        let ttmp ← strncpy (malloc (x - pos + 2)).toList ptext pos (x - pos + 1)
        let c ← peek ttmp (x - pos)
        let ttmp ← (if c = 10 then storeN ttmp (x - pos) [0] else .ok ttmp)
        let ttmp ← storeN ttmp (x - pos + 1) [0]
        let line ← strAt ttmp 0
        let shown ← print (pos = 0) line
        -- no `break` here: the loop runs past the end
        let (more, x) ← prettySegment print malloc ptext pos fuel (x + 1)
        return (shown ++ more, x)
      else
        let c ← peek ptext x
        if c = 10 then
          let ttmp ← strncpy (malloc (x - pos + 1)).toList ptext pos (x - pos)
          let ttmp ← storeN ttmp (x - pos) [0]
          let line ← strAt ttmp 0
          let shown ← print (pos = 0) line
          return (shown, x)
        else prettySegment print malloc ptext pos fuel (x + 1)
    else return ([], x)

/-- The outer loop over `pos`. -/
def prettyLoop (print : Bool → Str → Except Fault (List Shown))
    (malloc : (n : Nat) → Vector UInt8 n) (ptext : List UInt8) :
    Nat → Nat → Except Fault (List Shown)
  | 0, _ => .error .hang
  | fuel + 1, pos => do
    let len ← bufLen ptext
    if pos < len then
      let (shown, x) ← prettySegment print malloc ptext pos (len + 1) pos
      let more ← prettyLoop print malloc ptext fuel (x + 1)
      return shown ++ more
    else return []

/-- `printspaces` -/
def printspaces (num : Int) : List Shown := List.replicate num.toNat (.byte 32)

/-- `prettyprint`, whatever `wordwrap_print` does. -/
def prettyprintBy (wordwrap : Str → Int → Except Fault (List Shown))
    (malloc : (n : Nat) → Vector UInt8 n) (ptext : Str) (offset : Int) :
    Except Fault (List Shown) :=
  prettyLoop
    (fun first ttmp => do
      let shown ← wordwrap ttmp offset
      return (if first then [] else printspaces offset) ++ shown)
    malloc (terminated ptext) (ptext.length + 1) 0

/-- `prettyprint_echostr`, whatever `wordwrap_print_echostr` does. -/
def prettyprintEchostrBy (wordwrap : Str → Str → Except Fault (List Shown))
    (malloc : (n : Nat) → Vector UInt8 n) (ptext echostr : Str) : Except Fault (List Shown) :=
  prettyLoop (fun _ ttmp => wordwrap ttmp echostr) malloc (terminated ptext) (ptext.length + 1) 0

/-- `prettyprint` -/
def prettyprint (malloc : (n : Nat) → Vector UInt8 n) (screenCols : Int) (ptext : Str)
    (offset : Int) : Except Fault (List Shown) :=
  prettyprintBy (wordwrapPrint malloc screenCols) malloc ptext offset

/-- `prettyprint_echostr` -/
def prettyprintEchostr (malloc : (n : Nat) → Vector UInt8 n) (screenCols : Int)
    (ptext echostr : Str) : Except Fault (List Shown) :=
  prettyprintEchostrBy (wordwrapPrintEchostr malloc screenCols) malloc ptext echostr

/-! ## the segments -/

/-- What stands between the newlines; a newline at the end begins nothing. -/
def segments (s : Str) : List Str :=
  if (s.splitOn 10).getLast? = some [] then (s.splitOn 10).dropLast else s.splitOn 10

@[simp] theorem segments_nil : segments [] = [] := by simp [segments]

/-- A text without a newline is one segment. -/
theorem segments_line {line : Str} (hline : 10 ∉ line) (hne : line ≠ []) :
    segments line = [line] := by
  simp [segments, List.splitOn_eq_singleton hline, hne]

/-- The first segment ends at the first newline. -/
theorem segments_append {line : Str} (hline : 10 ∉ line) (rest : Str) :
    segments (line ++ 10 :: rest) = line :: segments rest := by
  obtain ⟨first, more, hrest⟩ := List.exists_cons_of_ne_nil (List.splitOn_ne_nil 10 rest)
  simp only [segments, List.splitOn_append_cons_self_of_not_mem hline, hrest,
    List.getLast?_cons_cons, List.dropLast_cons_cons]
  split <;> rfl

/-- What stands in front of the first newline, and what stands behind it. -/
theorem segments_eq {text : Str} (hne : text ≠ []) :
    segments text =
      text.takeWhile (· ≠ 10) :: segments (text.dropWhile (· ≠ 10)).tail := by
  by_cases hmem : 10 ∈ text
  · obtain ⟨line, rest, rfl, hline⟩ := List.eq_append_cons_of_mem hmem
    rw [segments_append hline, takeWhile_ne_append hline, dropWhile_ne_append hline, List.tail_cons]
  · have htake := takeWhile_ne_of_notMem hmem
    have hdrop : text.dropWhile (· ≠ 10) = [] :=
      List.dropWhile_eq_nil_iff.mpr (forall_ne_of_notMem hmem)
    rw [segments_line hmem hne, htake, hdrop, List.tail_nil, segments_nil]

/-- A segment has characters of the text only, and no newline. -/
theorem mem_segments {s line : Str} (hmem : line ∈ segments s) {c : UInt8} (hc : c ∈ line) :
    c ∈ s ∧ c ≠ 10 := by
  generalize hn : s.length = n
  induction n using Nat.strong_induction_on generalizing s with
  | _ n ih =>
    by_cases hnewline : 10 ∈ s
    · obtain ⟨first, rest, rfl, hfirst⟩ := List.eq_append_cons_of_mem hnewline
      rw [segments_append hfirst, List.mem_cons] at hmem
      rcases hmem with rfl | hmem
      · exact ⟨List.mem_append_left _ hc, fun h => hfirst (h ▸ hc)⟩
      · have hrest := ih rest.length (by simp at hn; omega) hmem rfl
        simp [hrest]
    · by_cases hne : s = []
      · simp [hne] at hmem
      · rw [segments_line hnewline hne, List.mem_singleton] at hmem
        subst hmem
        exact ⟨hc, fun h => hnewline (h ▸ hc)⟩

/-- The segments give the text back: joined by newlines, and with the one that
stands at the end. -/
theorem segments_join (s : Str) :
    [10].intercalate (segments s) ++ (if s.getLast? = some 10 then [10] else []) = s := by
  generalize hn : s.length = n
  induction n using Nat.strong_induction_on generalizing s with
  | _ n ih =>
    by_cases hnewline : 10 ∈ s
    · obtain ⟨line, rest, rfl, hline⟩ := List.eq_append_cons_of_mem hnewline
      have hrest := ih rest.length (by simp at hn; omega) rest rfl
      rw [segments_append hline]
      by_cases hne : rest = []
      · simp [hne]
      · obtain ⟨first, more, hmore⟩ : ∃ first more, segments rest = first :: more :=
          ⟨_, _, segments_eq hne⟩
        rw [hmore] at hrest ⊢
        rw [List.intercalate_cons_cons, List.getLast?_append_of_ne_nil _ (by simp),
          List.getLast?_cons_of_ne_nil hne]
        simpa using hrest
    · have hlast : s.getLast? ≠ some 10 := fun h => hnewline (List.mem_of_getLast? h)
      by_cases hne : s = []
      · simp [hne]
      · simp [segments_line hnewline hne, hlast]

/-! ## the loop hands over the segments -/

/-- Each piece in turn, the first one marked. -/
def printSegments (print : Bool → Str → Except Fault (List Shown)) :
    Bool → List Str → Except Fault (List Shown)
  | _, [] => return []
  | first, line :: rest => do
    let shown ← print first line
    let more ← printSegments print false rest
    return shown ++ more

/-- A copy up to the last character: a newline there is cut off. -/
theorem copy_last {str front done : Str} {c : UInt8} (hnul : 0 ∉ str)
    (hstr : str = front ++ (done ++ [c])) {buf : List UInt8} (hlen : buf.length = done.length + 2) :
    ∃ copied cut ended,
      strncpy buf (terminated str) front.length (done.length + 1) = .ok copied ∧
      peek copied done.length = .ok c ∧
      (if c = 10 then storeN copied done.length [0] else .ok copied) = .ok cut ∧
      storeN cut (done.length + 1) [0] = .ok ended ∧
      strAt ended 0 = .ok (if c = 10 then done else done ++ [c]) := by
  have hdrop : str.drop front.length = (done ++ [c]) ++ [] := by simp [hstr]
  have hbytes := strncpyBytes_eq hnul (done ++ [c]) [] hdrop
  obtain ⟨b, hb⟩ : ∃ b, buf.drop (done.length + 1) = [b] :=
    List.length_eq_one_iff.mp (by simp [hlen])
  have hcopy : strncpy buf (terminated str) front.length (done.length + 1) =
      .ok (done ++ [c, b]) := by
    rw [List.length_append, List.length_singleton] at hbytes
    rw [strncpy, hbytes, ok_bind, storeN_of_le (by simp [hlen])]
    simp [poke, hb]
  have hpeek : peek (done ++ [c, b]) done.length = .ok c := by simp [peek]
  -- the terminator behind the copy
  have hend (d : UInt8) : storeN (done ++ [d, b]) (done.length + 1) [0] = .ok (done ++ [d, 0]) := by
    rw [storeN_of_le (by simp), show done ++ [d, b] = (done ++ [d]) ++ [b] by simp,
      poke_append (by simp)]
    simp
  have hfree : 0 ∉ done ++ [c] := fun h => hnul (by rw [hstr]; exact List.mem_append_right _ h)
  by_cases hc : c = 10
  · have hcut : storeN (done ++ [c, b]) done.length [0] = .ok (done ++ [0, b]) := by
      rw [storeN_of_le (by simp), poke_append rfl]
      simp
    have hheld : HoldsStr ((done ++ [0, 0]).drop 0) done :=
      ⟨fun h => hfree (List.mem_append_left _ h), [0], by simp [terminated]⟩
    exact ⟨_, _, _, hcopy, hpeek, (if_pos hc).trans hcut, hend 0,
      by rw [if_pos hc]; exact hheld.strAt_eq⟩
  · have hheld : HoldsStr ((done ++ [c, 0]).drop 0) (done ++ [c]) :=
      ⟨hfree, [], by simp [terminated]⟩
    exact ⟨_, _, _, hcopy, hpeek, if_neg hc, hend c, by rw [if_neg hc]; exact hheld.strAt_eq⟩

section
variable (print : Bool → Str → Except Fault (List Shown)) (malloc : (n : Nat) → Vector UInt8 n)
  {str : Str}

/-- The inner loop at the last character: it goes on, past the end. -/
theorem prettySegment_last (hnul : 0 ∉ str) {front done : Str} {c : UInt8}
    (hstr : str = front ++ (done ++ [c])) (fuel : Nat) :
    prettySegment print malloc (terminated str) front.length (fuel + 2)
        (front.length + done.length) =
      (do
        let shown ← print (front.length = 0) (done ++ [c].takeWhile (· ≠ 10))
        return (shown, front.length + done.length + 1)) := by
  have hlen : bufLen (terminated str) = .ok str.length :=
    HoldsStr.bufLen_eq ⟨hnul, List.prefix_rfl⟩
  have hstrlen : str.length = front.length + done.length + 1 := by
    simp [hstr]
    omega
  obtain ⟨copied, cut, ended, hcopy, hpeek, hcut, hend, hline⟩ :=
    copy_last hnul hstr (show (malloc (done.length + 2)).toList.length = done.length + 2 by simp)
  have hpast : prettySegment print malloc (terminated str) front.length (fuel + 1)
      (front.length + done.length + 1) = .ok ([], front.length + done.length + 1) := by
    rw [prettySegment, hlen, ok_bind, if_neg (by omega)]
    rfl
  have htake : done ++ [c].takeWhile (· ≠ 10) = if c = 10 then done else done ++ [c] := by
    by_cases hc : c = 10 <;> simp [hc]
  rw [prettySegment, hlen, ok_bind, if_pos (by omega), Nat.add_sub_cancel_left,
    if_pos (by omega), hcopy, ok_bind, hpeek, ok_bind, hcut, ok_bind, hend, ok_bind, hline,
    ok_bind, hpast, htake]
  simp only [ok_bind, List.append_nil]

/-- The inner loop at a character that is not the last one. -/
theorem prettySegment_inside (hnul : 0 ∉ str) {front done rest : Str} {c : UInt8}
    (hstr : str = front ++ (done ++ c :: rest)) (hrest : rest ≠ []) (fuel : Nat) :
    prettySegment print malloc (terminated str) front.length (fuel + 1)
        (front.length + done.length) =
      if c = 10 then do
        let shown ← print (front.length = 0) done
        return (shown, front.length + done.length)
      else
        prettySegment print malloc (terminated str) front.length fuel
          (front.length + done.length + 1) := by
  have hlen : bufLen (terminated str) = .ok str.length :=
    HoldsStr.bufLen_eq ⟨hnul, List.prefix_rfl⟩
  have hstrlen : str.length = front.length + done.length + 1 + rest.length := by
    simp [hstr]
    omega
  have hpos := List.length_pos_of_ne_nil hrest
  have hchar : str.drop (front.length + done.length) = c :: rest := by
    rw [hstr, ← List.append_assoc, ← List.length_append, List.drop_left]
  obtain ⟨copied, ended, hcopy, hend, hheld⟩ :=
    strncpy_eq hnul (show str.drop front.length = done ++ c :: rest by rw [hstr, List.drop_left])
      (show done.length < (malloc (done.length + 1)).toList.length by simp)
  have hline : strAt ended 0 = .ok done := HoldsStr.strAt_eq hheld
  rw [prettySegment, hlen, ok_bind, if_pos (by omega), Nat.add_sub_cancel_left,
    if_neg (by omega), peek_terminated hchar, ok_bind, hcopy, ok_bind, hend, ok_bind, hline,
    ok_bind]

/-- The inner loop: the piece up to the newline or the end is handed over, and
the next one begins behind it. -/
theorem prettySegment_eq (hnul : 0 ∉ str) (front text : Str) :
    ∀ (done : Str) (fuel : Nat), str = front ++ (done ++ text) → text ≠ [] → text.length < fuel →
      ∃ x, prettySegment print malloc (terminated str) front.length fuel
          (front.length + done.length) =
            (do
              let shown ← print (front.length = 0) (done ++ text.takeWhile (· ≠ 10))
              return (shown, x)) ∧
        str.drop (x + 1) = (text.dropWhile (· ≠ 10)).tail := by
  induction text with
  | nil =>
      intro done fuel hstr hne
      exact absurd rfl hne
  | cons c rest ih =>
      intro done fuel hstr _ hfuel
      rw [List.length_cons] at hfuel
      obtain ⟨fuel, rfl⟩ := Nat.exists_eq_add_one_of_ne_zero (Nat.ne_zero_of_lt hfuel)
      by_cases hlast : rest = []
      · -- the last character
        subst hlast
        obtain ⟨fuel, rfl⟩ := Nat.exists_eq_add_one_of_ne_zero
          (Nat.ne_zero_of_lt (Nat.lt_of_succ_lt_succ hfuel))
        refine ⟨_, prettySegment_last print malloc hnul hstr fuel, ?_⟩
        rw [List.drop_eq_nil_of_le (by simp [hstr]; omega)]
        by_cases hc : c = 10 <;> simp [hc]
      · by_cases hc : c = 10
        · subst hc
          refine ⟨front.length + done.length, ?_, ?_⟩
          · rw [prettySegment_inside print malloc hnul hstr hlast fuel]
            simp
          · rw [hstr, ← List.append_assoc, ← List.length_append, ← List.drop_drop, List.drop_left]
            simp
        · obtain ⟨x, hrun, hnext⟩ := ih (done ++ [c]) fuel (by simp [hstr]) hlast (by omega)
          rw [List.length_append, List.length_singleton, ← Nat.add_assoc] at hrun
          rw [prettySegment_inside print malloc hnul hstr hlast fuel, if_neg hc, hrun]
          refine ⟨x, ?_, ?_⟩
          · simp [hc]
          · simpa [hc] using hnext

end

/-- The loop hands over the segments from `pos` on. -/
theorem prettyLoop_eq (print : Bool → Str → Except Fault (List Shown))
    (malloc : (n : Nat) → Vector UInt8 n) {str : Str} (hnul : 0 ∉ str) (fuel : Nat) :
    ∀ pos : Nat, (str.drop pos).length < fuel →
      prettyLoop print malloc (terminated str) fuel pos =
        printSegments print (pos = 0) (segments (str.drop pos)) := by
  have hlen : bufLen (terminated str) = .ok str.length :=
    HoldsStr.bufLen_eq ⟨hnul, List.prefix_rfl⟩
  induction fuel with
  | zero => simp
  | succ fuel ih =>
      intro pos hfuel
      rw [prettyLoop, hlen, ok_bind]
      by_cases hpos : pos < str.length
      · have hfront : (str.take pos).length = pos := by
          rw [List.length_take]
          omega
        have hne : str.drop pos ≠ [] := by simpa using hpos
        obtain ⟨x, hrun, hnext⟩ := prettySegment_eq print malloc hnul (str.take pos) (str.drop pos)
          [] (str.length + 1) (by simp) hne (by simp)
        have hshort : (str.drop (x + 1)).length < fuel := by
          have hle := (List.dropWhile_sublist (fun c : UInt8 => decide (c ≠ 10))
            (l := str.drop pos)).length_le
          have hrest := List.length_pos_of_ne_nil hne
          rw [hnext, List.length_tail]
          omega
        simp only [hfront, List.length_nil, Nat.add_zero, List.nil_append] at hrun
        rw [if_pos hpos, hrun, segments_eq hne, printSegments, ← hnext, bind_assoc]
        simp only [pure_bind, ih (x + 1) hshort]
        simp
      · have hnil : str.drop pos = [] := List.drop_eq_nil_of_le (by omega)
        rw [if_neg hpos, hnil, segments_nil]
        rfl

/-! ## what is printed -/

/-- Pieces behind the first one are indented. -/
theorem printSegments_false (wordwrap : Str → Except Fault (List Shown)) (indent : List Shown)
    (lines : List Str) :
    printSegments (fun first line => do
        let shown ← wordwrap line
        return (if first then [] else indent) ++ shown) false lines =
      (fun shown => shown.flatMap (indent ++ ·)) <$> lines.mapM wordwrap := by
  induction lines with
  | nil => simp [printSegments]
  | cons line rest ih =>
      rw [printSegments, ih, List.mapM_cons]
      simp

/-- The indentation stands between the pieces. -/
theorem printSegments_true (wordwrap : Str → Except Fault (List Shown)) (indent : List Shown)
    (lines : List Str) :
    printSegments (fun first line => do
        let shown ← wordwrap line
        return (if first then [] else indent) ++ shown) true lines =
      (fun shown => (shown.intersperse indent).flatten) <$> lines.mapM wordwrap := by
  have hjoin (shown : List Shown) (more : List (List Shown)) :
      ((shown :: more).intersperse indent).flatten = shown ++ more.flatMap (indent ++ ·) := by
    induction more generalizing shown with
    | nil => simp
    | cons next more ih => simp [ih next]
  cases lines with
  | nil => simp [printSegments]
  | cons line rest =>
      rw [printSegments, printSegments_false, List.mapM_cons]
      simp [hjoin]

/-- Without an indentation the two agree. -/
theorem printSegments_flatten (wordwrap : Str → Except Fault (List Shown)) (lines : List Str) :
    ∀ first : Bool, printSegments (fun _ line => wordwrap line) first lines =
      List.flatten <$> lines.mapM wordwrap := by
  induction lines with
  | nil => simp [printSegments]
  | cons line rest ih =>
      intro first
      rw [printSegments, ih, List.mapM_cons]
      simp

/-- A list of runs that all succeed. -/
theorem mapM_ok {α β : Type} {f : α → Except Fault β} {xs : List α}
    (h : ∀ x ∈ xs, ∃ y, f x = .ok y) : ∃ ys, xs.mapM f = .ok ys := by
  induction xs with
  | nil => exact ⟨[], rfl⟩
  | cons x xs ih =>
      obtain ⟨y, hy⟩ := h x List.mem_cons_self
      obtain ⟨ys, hys⟩ := ih fun z hz => h z (List.mem_cons_of_mem x hz)
      exact ⟨y :: ys, by rw [List.mapM_cons, hy, ok_bind, hys]; rfl⟩

/-- Whatever the two printing functions do with a piece, they are given the
segments, in order, and no others; those of `out.c` print each of them, and so
both functions end.  The segments have no newline, and joined by newlines they
are the text again. -/
theorem prettyprint_segments (malloc : (n : Nat) → Vector UInt8 n) (screenCols offset : Int)
    (ptext echostr : Str) (hnul : 0 ∉ ptext) :
    (∀ wordwrap : Str → Int → Except Fault (List Shown),
      prettyprintBy wordwrap malloc ptext offset =
        (fun shown => (shown.intersperse (printspaces offset)).flatten) <$>
          (segments ptext).mapM (wordwrap · offset)) ∧
    (∀ wordwrap : Str → Str → Except Fault (List Shown),
      prettyprintEchostrBy wordwrap malloc ptext echostr =
        List.flatten <$> (segments ptext).mapM (wordwrap · echostr)) ∧
    (∃ shown, (segments ptext).mapM (wordwrapPrint malloc screenCols · offset) = .ok shown ∧
      prettyprint malloc screenCols ptext offset =
        .ok (shown.intersperse (printspaces offset)).flatten) ∧
    (∃ shown, (segments ptext).mapM (wordwrapPrintEchostr malloc screenCols · echostr) = .ok shown ∧
      prettyprintEchostr malloc screenCols ptext echostr = .ok shown.flatten) ∧
    (∀ line ∈ segments ptext, 10 ∉ line) ∧
    [10].intercalate (segments ptext) ++ (if ptext.getLast? = some 10 then [10] else []) =
      ptext := by
  have hplain (wordwrap : Str → Int → Except Fault (List Shown)) :
      prettyprintBy wordwrap malloc ptext offset =
        (fun shown => (shown.intersperse (printspaces offset)).flatten) <$>
          (segments ptext).mapM (wordwrap · offset) := by
    rw [prettyprintBy, prettyLoop_eq _ malloc hnul _ 0 (by simp)]
    exact printSegments_true (wordwrap · offset) _ _
  have hechostr (wordwrap : Str → Str → Except Fault (List Shown)) :
      prettyprintEchostrBy wordwrap malloc ptext echostr =
        List.flatten <$> (segments ptext).mapM (wordwrap · echostr) := by
    rw [prettyprintEchostrBy, prettyLoop_eq _ malloc hnul _ 0 (by simp)]
    exact printSegments_flatten (wordwrap · echostr) _ _
  have hfree : ∀ line ∈ segments ptext, 0 ∉ line := fun line hline h =>
    hnul (mem_segments hline h).1
  refine ⟨hplain, hechostr, ?_, ?_, fun line hline h => (mem_segments hline h).2 rfl,
    segments_join ptext⟩
  · obtain ⟨shown, hshown⟩ := mapM_ok fun line hline =>
      ⟨_, wordwrapPrint_eq malloc screenCols offset (hfree line hline)⟩
    exact ⟨shown, hshown, by rw [prettyprint, hplain, hshown]; rfl⟩
  · obtain ⟨shown, hshown⟩ := mapM_ok fun line hline =>
      ⟨_, wordwrapPrintEchostr_eq malloc screenCols echostr (hfree line hline)⟩
    exact ⟨shown, hshown, by rw [prettyprintEchostr, hechostr, hshown]; rfl⟩

/-- A text with an empty line in it, and a newline at its end: what is printed
of its three segments, one after the other. -/
theorem prettyprint_segments_blank :
    (∀ wordwrap : Str → Int → Except Fault (List Shown),
      prettyprintBy wordwrap (fun n => Vector.replicate n 255) (ascii "a\n\nb\n") 2 =
        (fun shown => (shown.intersperse (printspaces 2)).flatten) <$>
          [ascii "a", [], ascii "b"].mapM (wordwrap · 2)) ∧
    (∀ wordwrap : Str → Str → Except Fault (List Shown),
      prettyprintEchostrBy wordwrap (fun n => Vector.replicate n 255) (ascii "a\n\nb\n")
          (ascii "::") =
        List.flatten <$> [ascii "a", [], ascii "b"].mapM (wordwrap · (ascii "::"))) ∧
    (∃ shown, [ascii "a", [], ascii "b"].mapM
        (wordwrapPrint (fun n => Vector.replicate n 255) 80 · 2) = .ok shown ∧
      prettyprint (fun n => Vector.replicate n 255) 80 (ascii "a\n\nb\n") 2 =
        .ok (shown.intersperse (printspaces 2)).flatten) ∧
    (∃ shown, [ascii "a", [], ascii "b"].mapM
        (wordwrapPrintEchostr (fun n => Vector.replicate n 255) 80 · (ascii "::")) = .ok shown ∧
      prettyprintEchostr (fun n => Vector.replicate n 255) 80 (ascii "a\n\nb\n") (ascii "::") =
        .ok shown.flatten) ∧
    [10].intercalate [ascii "a", [], ascii "b"] ++ [10] = ascii "a\n\nb\n" := by
  have h := prettyprint_segments (fun n => Vector.replicate n 255) 80 2 (ascii "a\n\nb\n")
    (ascii "::") (by decide +kernel)
  have hsegments : segments (ascii "a\n\nb\n") = [ascii "a", [], ascii "b"] := by decide +kernel
  rw [hsegments] at h
  exact ⟨h.1, h.2.1, h.2.2.1, h.2.2.2.1, h.2.2.2.2.2⟩

example : prettyprint (fun n => Vector.replicate n 255) 80 (ascii "a\n\nb\n") 2 =
    .ok (printf (ascii "a\n  \n  b\n")) := by decide +kernel

end Bsflite
