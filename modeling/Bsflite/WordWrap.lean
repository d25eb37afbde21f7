import Bsflite.CString
import Bsflite.Requests

/-!
# Bsflite.WordWrap

`wordwrap_print` and `wordwrap_print_echostr` of `out.c`.  The two have one
loop, with other separators, another width and another way to print a line;
it is written once, for a `Wrap`.

* `layout` — the lines, decided from the text alone.
* `wrapLoop_eq` — the loop prints these lines, and stays inside its memory.
* `layout_fits` — a line with a blank in it fits.
* `word_wrap` — both functions print the whole text, broken at separators.
-/

namespace Bsflite

/-! ## printing -/

/-- The colours that are set here; `none` is `set_color(0)`. -/
inductive Color where
  | none
  | profile
  | profileEchostr
deriving DecidableEq, Repr

/-- What reaches the terminal: a byte, or a change of colour. -/
inductive Shown where
  | byte (c : UInt8)
  | color (c : Color)
deriving DecidableEq, Repr

/-- `printf("%s", s)` -/
def printf (s : Str) : List Shown := s.map .byte

/-- In what the two functions differ. -/
structure Wrap where
  /-- The characters at which a line may be broken. -/
  sep : UInt8 → Bool
  /-- The separators at which it always is. -/
  forced : UInt8 → Bool
  forced_sep : ∀ c, forced c = true → sep c = true
  /-- The longest line with a blank in it. -/
  limit : Int
  /-- A line on the terminal, the first one or a later one. -/
  print : Bool → Str → List Shown

/-! ## the loop -/

/-- The inner loop: the end of the word that begins at `yy`, for the bytes
left. -/
def wordEnd (sep : UInt8 → Bool) : Nat → List UInt8 → Except Fault Nat
  | _, [] => .error .oob
  | yy, c :: rest => if sep c ∨ c = 0 then return yy else wordEnd sep (yy + 1) rest

/-- The loop: `curline` is an index into the string, and `xx` one into the
line. -/
def wrapLoop (w : Wrap) (malloc : (n : Nat) → Vector UInt8 n) (mem : List UInt8) :
    Nat → Nat → Nat → Bool → Except Fault (List Shown)
  | 0, _, _, _ => .error .hang
  | fuel + 1, curline, xx, firstline => do
    let c ← peek mem (curline + xx)
    if c = 0 then
      let line ← strAt mem curline
      return w.print firstline line
    else if w.sep c then
      let yy ← wordEnd w.sep (xx + 1) (mem.drop (curline + xx + 1))
      if w.forced c ∨ w.limit < yy then
        let linebuf ← strncpy (malloc (xx + 1)).toList mem curline xx
        let linebuf ← storeN linebuf xx [0]
        let line ← strAt linebuf 0
        let rest ← wrapLoop w malloc mem fuel (curline + xx + 1) 0 false
        return w.print firstline line ++ rest
      else wrapLoop w malloc mem fuel curline (xx + 1) firstline
    else wrapLoop w malloc mem fuel curline (xx + 1) firstline

/-- What `wordwrap_print` does to a line: all but the first one are indented. -/
def plainWrap (screenCols offset : Int) : Wrap where
  sep c := c = 32 ∨ c = 10
  forced c := c = 10
  forced_sep c h := by simp_all
  limit := screenCols - offset - 4
  print firstline line :=
    (if firstline then [] else List.replicate offset.toNat (.byte 32)) ++ printf (line ++ [10])

/-- What `wordwrap_print_echostr` does to a line: it goes behind `echostr`. -/
def echostrWrap (screenCols : Int) (echostr : Str) : Wrap where
  sep c := c = 32
  forced _ := false
  forced_sep _ h := nomatch h
  limit := screenCols - (echostr.length + 1) - 3
  print _ line :=
    .color .profileEchostr :: printf echostr ++ .color .profile :: printf (32 :: line ++ [10])

/-- `wordwrap_print` -/
def wordwrapPrint (malloc : (n : Nat) → Vector UInt8 n) (screenCols : Int) (str : Str)
    (offset : Int) : Except Fault (List Shown) :=
  wrapLoop (plainWrap screenCols offset) malloc (terminated str) (str.length + 1) 0 0 true

/-- `wordwrap_print_echostr` -/
def wordwrapPrintEchostr (malloc : (n : Nat) → Vector UInt8 n) (screenCols : Int)
    (str echostr : Str) : Except Fault (List Shown) := do
  let shown ← wrapLoop (echostrWrap screenCols echostr) malloc (terminated str) (str.length + 1)
    0 0 true
  return shown ++ [.color .none]

/-! ## the lines -/

/-- Lines, each with the separator it was broken at, and the last line. -/
structure Layout where
  broken : List (Str × UInt8)
  last : Str

namespace Layout

/-- The lines. -/
def lines (l : Layout) : List Str := l.broken.map Prod.fst ++ [l.last]

/-- The text: the lines joined by the separators. -/
def text (l : Layout) : Str := l.broken.flatMap (fun p => p.1 ++ [p.2]) ++ l.last

/-- A line in front. -/
def cons (line : Str) (c : UInt8) (l : Layout) : Layout :=
  { l with broken := (line, c) :: l.broken }

theorem lines_cons (line : Str) (c : UInt8) (l : Layout) :
    (l.cons line c).lines = line :: l.lines := rfl

theorem text_cons (line : Str) (c : UInt8) (l : Layout) :
    (l.cons line c).text = line ++ c :: l.text := by
  simp [text, cons]

/-- A line is a part of the text. -/
theorem mem_text {l : Layout} {line : Str} (h : line ∈ l.lines) {c : UInt8} (hc : c ∈ line) :
    c ∈ l.text := by
  rw [lines, List.mem_append, List.mem_map, List.mem_singleton] at h
  rw [text, List.mem_append, List.mem_flatMap]
  rcases h with ⟨p, hp, rfl⟩ | rfl
  · exact .inl ⟨p, hp, List.mem_append_left [p.2] hc⟩
  · exact .inr hc

end Layout

/-- The lines of a text, with `done` on the open line. -/
def layout (w : Wrap) : Str → Str → Layout
  | done, [] => ⟨[], done⟩
  | done, c :: rest =>
    if w.sep c ∧ (w.forced c ∨
        w.limit < (done.length + 1 + (rest.takeWhile fun b => !w.sep b).length : Nat)) then
      (layout w [] rest).cons done c
    else layout w (done ++ [c]) rest

/-- The lines on the terminal. -/
def printLines (print : Bool → Str → List Shown) : Bool → List Str → List Shown
  | _, [] => []
  | firstline, line :: rest => print firstline line ++ printLines print false rest

/-! ## what the layout is -/

/-- Nothing is lost. -/
theorem text_layout (w : Wrap) (done text : Str) : (layout w done text).text = done ++ text := by
  induction text generalizing done with
  | nil => simp [layout, Layout.text]
  | cons c rest ih =>
      rw [layout]
      split
      · rw [Layout.text_cons, ih, List.nil_append]
      · rw [ih, List.append_assoc]
        rfl

/-- The lines are broken at separators. -/
theorem layout_sep (w : Wrap) (done text : Str) :
    ∀ p ∈ (layout w done text).broken, w.sep p.2 = true := by
  induction text generalizing done with
  | nil => exact fun p hp => absurd hp List.not_mem_nil
  | cons c rest ih =>
      rw [layout]
      split
      · next hbreak =>
        intro p hp
        rcases List.mem_cons.mp hp with rfl | hp
        · exact hbreak.1
        · exact ih [] p hp
      · exact ih (done ++ [c])

/-- An open line: once it has a separator in it, it fits together with the
word that is being read. -/
structure OpenLine (w : Wrap) (done text : Str) : Prop where
  fits : (∃ c ∈ done, w.sep c = true) →
    ((done.length + (text.takeWhile fun b => !w.sep b).length : Nat) : Int) ≤ w.limit
  plain : ∀ c ∈ done, w.forced c = false

/-- A line that has been printed. -/
structure Fits (w : Wrap) (line : Str) : Prop where
  fits : (∃ c ∈ line, w.sep c = true) → (line.length : Int) ≤ w.limit
  plain : ∀ c ∈ line, w.forced c = false

theorem Fits.blank {w : Wrap} {line : Str} (h : Fits w line) (hsep : w.sep 32 = true) :
    32 ∉ line ∨ (line.length : Int) ≤ w.limit := by
  by_cases hblank : 32 ∈ line
  · exact .inr (h.fits ⟨32, hblank, hsep⟩)
  · exact .inl hblank

theorem OpenLine.nil (w : Wrap) (text : Str) : OpenLine w [] text where
  fits h := absurd h (by simp)
  plain c hc := absurd hc List.not_mem_nil

/-- A line that ends at a separator or with the text. -/
theorem OpenLine.close {w : Wrap} {done text : Str} (h : OpenLine w done text) : Fits w done where
  fits hsep := by
    have hle := h.fits hsep
    omega
  plain := h.plain

/-- A character is added to the open line. -/
theorem OpenLine.add {w : Wrap} {done rest : Str} {c : UInt8} (h : OpenLine w done (c :: rest))
    (hkeep : ¬ (w.sep c ∧ (w.forced c ∨
      w.limit < (done.length + 1 + (rest.takeWhile fun b => !w.sep b).length : Nat)))) :
    OpenLine w (done ++ [c]) rest where
  fits hsep := by
    rw [List.length_append, List.length_singleton]
    by_cases hc : w.sep c = true
    · by_contra hlong
      exact hkeep ⟨hc, .inr (not_le.mp hlong)⟩
    · have hold : ∃ b ∈ done, w.sep b = true := by
        obtain ⟨b, hb, hbsep⟩ := hsep
        rcases List.mem_append.mp hb with hb | hb
        · exact ⟨b, hb, hbsep⟩
        · rw [List.mem_singleton.mp hb] at hbsep
          exact absurd hbsep hc
      have hle := h.fits hold
      rw [List.takeWhile_cons_of_pos (by simpa using hc), List.length_cons] at hle
      omega
  plain b hb := by
    rcases List.mem_append.mp hb with hb | hb
    · exact h.plain b hb
    · rw [List.mem_singleton.mp hb]
      by_contra hforced
      have hforced := eq_true_of_ne_false hforced
      exact hkeep ⟨w.forced_sep c hforced, .inl hforced⟩

/-- Every line fits. -/
theorem layout_fits (w : Wrap) {done text : Str} (h : OpenLine w done text) :
    ∀ line ∈ (layout w done text).lines, Fits w line := by
  induction text generalizing done with
  | nil =>
      intro line hline
      rw [List.mem_singleton.mp hline]
      exact h.close
  | cons c rest ih =>
      rw [layout]
      split
      · intro line hline
        rw [Layout.lines_cons] at hline
        rcases List.mem_cons.mp hline with rfl | hline
        · exact h.close
        · exact ih (OpenLine.nil w rest) line hline
      · next hkeep => exact ih (h.add hkeep)

/-! ## what is printed -/

/-- The inner loop finds the end of the word. -/
theorem wordEnd_eq (sep : UInt8 → Bool) {rest : Str} (hnul : 0 ∉ rest) (yy : Nat) :
    wordEnd sep yy (terminated rest) =
      .ok (yy + (rest.takeWhile fun b => !sep b).length) := by
  induction rest generalizing yy with
  | nil =>
      rw [terminated, List.nil_append, wordEnd, if_pos (.inr rfl)]
      rfl
  | cons c rest ih =>
      rw [List.mem_cons, not_or] at hnul
      rw [terminated, List.cons_append, wordEnd]
      by_cases hc : sep c = true
      · rw [if_pos (.inl hc), List.takeWhile_cons_of_neg (by simpa using hc)]
        rfl
      · rw [if_neg (not_or.mpr ⟨hc, Ne.symm hnul.1⟩),
          List.takeWhile_cons_of_pos (by simpa using hc), List.length_cons, ← terminated, ih hnul.2]
        congr 1
        omega

/-- The loop prints the lines of the layout. -/
theorem wrapLoop_eq (w : Wrap) (malloc : (n : Nat) → Vector UInt8 n) {str : Str} (hnul : 0 ∉ str)
    (text : Str) :
    ∀ (front done : Str) (fuel : Nat) (firstline : Bool), str = front ++ (done ++ text) →
      text.length < fuel →
      wrapLoop w malloc (terminated str) fuel front.length done.length firstline =
        .ok (printLines w.print firstline (layout w done text).lines) := by
  induction text with
  | nil =>
      intro front done fuel firstline hstr hfuel
      obtain ⟨fuel, rfl⟩ := Nat.exists_eq_add_one_of_ne_zero (Nat.ne_zero_of_lt hfuel)
      have hend : front.length + done.length = str.length := by
        rw [hstr, List.append_nil, List.length_append]
      have hrest : HoldsStr ((terminated str).drop front.length) done := by
        have hdrop := holdsStr_drop hnul (i := front.length) (by omega)
        rwa [show str.drop front.length = done by rw [hstr, List.append_nil, List.drop_left]]
          at hdrop
      rw [wrapLoop, hend, peek_terminator, ok_bind, if_pos rfl, hrest.strAt_eq, ok_bind]
      exact congrArg Except.ok (List.append_nil _).symm
  | cons c rest ih =>
      intro front done fuel firstline hstr hfuel
      obtain ⟨fuel, rfl⟩ := Nat.exists_eq_add_one_of_ne_zero (Nat.ne_zero_of_lt hfuel)
      rw [List.length_cons] at hfuel
      have hline : str.drop front.length = done ++ c :: rest := by
        rw [hstr, List.drop_left]
      have hchar : str.drop (front.length + done.length) = c :: rest := by
        rw [← List.drop_drop, hline, List.drop_left]
      have hmem (b : UInt8) (hb : b ∈ c :: rest) : b ≠ 0 := by
        rintro rfl
        refine hnul (List.mem_of_mem_drop (i := front.length + done.length) ?_)
        rwa [hchar]
      -- a character that does not end the line goes on it
      have hkeep :
          wrapLoop w malloc (terminated str) fuel front.length (done.length + 1) firstline =
            .ok (printLines w.print firstline (layout w (done ++ [c]) rest).lines) := by
        have hnext := ih front (done ++ [c]) fuel firstline (by rw [hstr]; simp) (by omega)
        rwa [List.length_append, List.length_singleton] at hnext
      rw [wrapLoop, peek_terminated hchar, ok_bind, if_neg (hmem c List.mem_cons_self), layout]
      by_cases hsep : w.sep c = true
      · have hword : (terminated str).drop (front.length + done.length + 1) = terminated rest := by
          rw [terminated, List.drop_append_of_le_length, ← List.drop_drop, hchar]
          · rfl
          · rw [hstr, List.length_append, List.length_append, List.length_cons]
            omega
        rw [if_pos hsep, hword, wordEnd_eq w.sep fun h => hmem 0 (List.mem_cons_of_mem c h) rfl,
          ok_bind]
        split
        · next hbreak =>
          obtain ⟨copied, ended, hcopy, hend, hheld⟩ :=
            strncpy_eq hnul hline
              (show done.length < (malloc (done.length + 1)).toList.length by simp)
          have hprinted : strAt ended 0 = .ok done := HoldsStr.strAt_eq hheld
          have hnext := ih (front ++ done ++ [c]) [] fuel false (by rw [hstr]; simp) (by omega)
          rw [List.length_append, List.length_append, List.length_singleton,
            List.length_nil] at hnext
          rw [hcopy, ok_bind, hend, ok_bind, hprinted, ok_bind, hnext, if_pos ⟨hsep, hbreak⟩]
          rfl
        · next hfits => rw [hkeep, if_neg fun h => hfits h.2]
      · rw [if_neg hsep, hkeep, if_neg fun h => hsep h.1]

/-- `wordwrap_print` prints the lines of its layout. -/
theorem wordwrapPrint_eq (malloc : (n : Nat) → Vector UInt8 n) (screenCols offset : Int) {str : Str}
    (hnul : 0 ∉ str) :
    wordwrapPrint malloc screenCols str offset =
      .ok (printLines (plainWrap screenCols offset).print true
        (layout (plainWrap screenCols offset) [] str).lines) :=
  wrapLoop_eq _ malloc hnul str [] [] _ true rfl (Nat.lt_succ_self _)

/-- `wordwrap_print_echostr` prints the lines of its layout. -/
theorem wordwrapPrintEchostr_eq (malloc : (n : Nat) → Vector UInt8 n) (screenCols : Int)
    (echostr : Str) {str : Str} (hnul : 0 ∉ str) :
    wordwrapPrintEchostr malloc screenCols str echostr =
      .ok (printLines (echostrWrap screenCols echostr).print true
        (layout (echostrWrap screenCols echostr) [] str).lines ++ [.color .none]) := by
  have hrun := wrapLoop_eq (echostrWrap screenCols echostr) malloc hnul str [] [] _ true rfl
    (Nat.lt_succ_self _)
  rw [List.length_nil] at hrun
  rw [wordwrapPrintEchostr, hrun]
  rfl

/-- What a printed text is: lines that give it back, joined by the separators
they were broken at; none has a newline, and one with a blank is no longer
than `limit`. -/
structure Wrapped (limit : Int) (sep : UInt8 → Prop) (str : Str) (l : Layout) : Prop where
  text : l.text = str
  sep : ∀ p ∈ l.broken, sep p.2
  newline : ∀ line ∈ l.lines, 10 ∉ line
  fits : ∀ line ∈ l.lines, 32 ∉ line ∨ (line.length : Int) ≤ limit

/-- Both functions end, for every string and every width; the lines that they
print give the string back, and fit. -/
theorem word_wrap (malloc : (n : Nat) → Vector UInt8 n) (screenCols : Int) (str : Str)
    (hnul : 0 ∉ str) :
    (∀ offset : Int, ∃ l : Layout,
      wordwrapPrint malloc screenCols str offset =
        .ok (printLines (plainWrap screenCols offset).print true l.lines) ∧
      Wrapped (screenCols - offset - 4) (fun c => c = 32 ∨ c = 10) str l) ∧
    (10 ∉ str → ∀ echostr : Str, ∃ l : Layout,
      wordwrapPrintEchostr malloc screenCols str echostr =
        .ok (printLines (echostrWrap screenCols echostr).print true l.lines ++ [.color .none]) ∧
      Wrapped (screenCols - (echostr.length + 1) - 3) (fun c => c = 32) str l) := by
  refine ⟨fun offset => ?_, fun hnewline echostr => ?_⟩
  · have hfits := layout_fits _ (OpenLine.nil (plainWrap screenCols offset) str)
    refine ⟨layout (plainWrap screenCols offset) [] str, ?_, ?_, ?_, ?_, ?_⟩
    · exact wordwrapPrint_eq malloc screenCols offset hnul
    · exact text_layout _ [] str
    · exact fun p hp => of_decide_eq_true (layout_sep _ [] str p hp)
    · intro line hline h
      exact nomatch show true = false from (hfits line hline).plain 10 h
    · exact fun line hline => (hfits line hline).blank rfl
  · have hfits := layout_fits _ (OpenLine.nil (echostrWrap screenCols echostr) str)
    have htext := text_layout (echostrWrap screenCols echostr) [] str
    refine ⟨layout (echostrWrap screenCols echostr) [] str, ?_, ?_, ?_, ?_, ?_⟩
    · exact wordwrapPrintEchostr_eq malloc screenCols echostr hnul
    · exact htext
    · exact fun p hp => of_decide_eq_true (layout_sep _ [] str p hp)
    · intro line hline h
      have hmem := Layout.mem_text hline h
      rw [htext] at hmem
      exact hnewline hmem
    · exact fun line hline => (hfits line hline).blank rfl

/-- A word that is too long stays whole. -/
theorem word_wrap_narrow :
    (∃ l : Layout, wordwrapPrint (fun n => Vector.replicate n 255) 12
        (ascii "a unbreakable\nb c") 2 =
        .ok (printLines (plainWrap 12 2).print true l.lines) ∧
      Wrapped (12 - 2 - 4) (fun c => c = 32 ∨ c = 10) (ascii "a unbreakable\nb c") l) ∧
    ∃ l : Layout,
      wordwrapPrintEchostr (fun n => Vector.replicate n 255) 12 (ascii "a b unbreakable")
          (ascii "::") =
        .ok (printLines (echostrWrap 12 (ascii "::")).print true l.lines ++ [.color .none]) ∧
      Wrapped (12 - ((ascii "::").length + 1) - 3) (fun c => c = 32) (ascii "a b unbreakable") l :=
  ⟨(word_wrap _ 12 (ascii "a unbreakable\nb c") (by decide +kernel)).1 2,
    (word_wrap _ 12 (ascii "a b unbreakable") (by decide +kernel)).2 (by decide +kernel)
      (ascii "::")⟩

example : wordwrapPrint (fun n => Vector.replicate n 255) 12 (ascii "a unbreakable\nb c") 2 =
    .ok (printf (ascii "a\n  unbreakable\n  b c\n")) := by decide +kernel

end Bsflite
