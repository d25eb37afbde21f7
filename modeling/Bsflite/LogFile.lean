import Bsflite.Files
import Bsflite.Prettyprint

/-!
# Bsflite.LogFile

The log files of `log.c`: what `log_event` writes, and what `show_log` shows.

* `LogEntry.text` — what is written.
* `showLog_eq` — the last lines of a file are shown, a line that is too long
  in pieces.
* `shownFileLine_stamp` — a line with a time in front.
* `log_shown` — they are the last lines of what was written for a buddy.
-/

namespace Bsflite

/-! ## writing -/

/-- `PATH_MAX` -/
def pathMax : Nat := 4096

/-- `conn->single_log`, `logpath`, and what `fopen` makes of a path: the file
that it leads to, and whether that can be opened to append. -/
structure LogDir where
  singleLog : Bool
  logpath : Str
  file : Str → Str
  refuses : Str → Bool
  /-- no log in the directory is another's -/
  apart : ∀ sn sn', 47 ∉ sn → 47 ∉ sn' →
    file (logpath ++ ascii "/" ++ sn ++ ascii ".log") =
      file (logpath ++ ascii "/" ++ sn' ++ ascii ".log") → sn = sn'

/-- The name of the log of a buddy, before it is cut. -/
def LogDir.fullName (d : LogDir) (sn : Str) : Str :=
  if d.singleLog then d.logpath ++ ascii "/log" else d.logpath ++ ascii "/" ++ sn ++ ascii ".log"

/-- `user_log` -/
def LogDir.userLog (d : LogDir) (sn : Str) : Str := (d.fullName sn).take (pathMax - 1)

/-- The file that it leads to. -/
def LogDir.logFile (d : LogDir) (sn : Str) : Str := d.file (d.userLog sn)

/-- The arguments of `log_event`. -/
structure LogEntry where
  event : LogEvent
  sn : Str
  msg : Option Str
deriving DecidableEq, Repr

/-- What `log_event` writes at the time `ts`.  Where there is no message, the
formats that would print one print `(null)`. -/
def LogEntry.text (e : LogEntry) (singleLog : Bool) (ts : Str) : Str :=
  let msg := e.msg.getD (ascii "(null)")
  ts ++ ascii ": " ++
    (match e.event with
    | .im => if singleLog then e.sn ++ ascii ": " ++ msg else ascii "<- " ++ msg
    | .imAutoresponse =>
      if singleLog then e.sn ++ ascii ": *AUTO* " ++ msg else ascii "<- *AUTO* " ++ msg
    | .signon => if singleLog then e.sn ++ ascii " signed on." else ascii "Buddy signed on."
    | .signoff => if singleLog then e.sn ++ ascii " signed off." else ascii "Buddy signed off."
    | .imsend =>
      if singleLog then ascii ">" ++ e.sn ++ ascii ": " ++ msg else ascii "-> " ++ msg) ++
    ascii "\n"

/-- The end of `log_event`: the text is appended to the file. -/
def LogDir.write (d : LogDir) (files : Files) (e : Str × LogEntry) : Files :=
  let name := d.logFile e.2.sn
  if d.refuses (d.userLog e.2.sn) then files
  else
    Function.update files name (some ((files name).getD [] ++ e.2.text d.singleLog e.1))

/-- What an entry of the trace writes. -/
def Traced.entry : Traced → Option LogEntry
  | .logged event sn msg => some ⟨event, sn, msg⟩
  | .newmsg _ => none
  | .inject _ => none
  | .imSend _ _ _ _ => none

/-- What a client has logged, the first entry first. -/
def Client.entries (c : Client) : List LogEntry := (c.trace.filterMap Traced.entry).reverse

/-! ## showing -/

/-- The first loop of `show_log` -/
def countNewlines : List UInt8 → Nat → Nat
  | [], linect => linect
  | ch :: rest, linect => countNewlines rest (if ch = 10 then linect + 1 else linect)

/-- The second loop: what is left of the file after `skip` newlines. -/
def skipLines (skip : Nat) : List UInt8 → Nat → List UInt8
  | [], _ => []
  | ch :: rest, linect2 =>
    if ch = 10 then if linect2 + 1 = skip then rest else skipLines skip rest (linect2 + 1)
    else skipLines skip rest linect2

/-- The body of the third loop. -/
def showPiece (malloc : (n : Nat) → Vector UInt8 n) (screenCols : Int)
    (s : List UInt8 × List Shown) (piece : List UInt8) :
    Except Fault (List UInt8 × List Shown) := do
  let buf ← storeN s.1 0 (terminated piece)
  let buf ← cutEnd 10 1 buf
  let n ← bufLen buf
  let colon ← strchr buf 0 58
  if 24 < n ∧ colon.isSome then
    let tmp ← strncpy (List.replicate 25 0) buf 0 24
    let stamp ← strAt tmp 0
    let text ← strAt buf 24
    let shown ← wordwrapPrint malloc screenCols text 24
    return (buf, s.2 ++ printf stamp ++ shown)
  else
    let text ← strAt buf 0
    let shown ← wordwrapPrint malloc screenCols text 24
    return (buf, s.2 ++ printf (List.replicate 24 32) ++ shown)

/-- `show_log` -/
def showLog (malloc : (n : Nat) → Vector UInt8 n) (screenCols : Int) (d : LogDir) (files : Files)
    (lines : Nat) (sn : Str) : Except Fault (List Shown) :=
  match files (d.logFile sn) with
  | none => return printf [10]
  | some logfile => do
    let linect := countNewlines logfile 0
    let rest := if lines < linect then skipLines (linect - lines) logfile 0 else logfile
    let s ← forPieces (showPiece malloc screenCols) 1023 (rest.length + 1) rest
      ((malloc 1024).toList, printf [10])
    return s.2

/-- `input_show_log` -/
def inputShowLog (malloc : (n : Nat) → Vector UInt8 n) (screenCols : Int) (d : LogDir)
    (files : Files) (lastsn : Option Str) (arg : Str) : Except Fault (List Shown) :=
  -- a single `l` is too short to be a screen name
  if arg = ascii "l" then
    match lastsn with
    | some lastsn => showLog malloc screenCols d files 20 lastsn
    | none => return printf [10]
  else showLog malloc screenCols d files 20 arg

/-! ## the lines of a text -/

/-- A text that is empty, or ends with a newline. -/
def Closed (text : Str) : Prop := ∃ lines : List Str, (∀ line ∈ lines, 10 ∉ line) ∧
  text = lines.flatMap (· ++ [10])

theorem segments_flatMap {lines : List Str} (hlines : ∀ line ∈ lines, 10 ∉ line) :
    segments (lines.flatMap (· ++ [10])) = lines := by
  induction lines with
  | nil => rfl
  | cons line lines ih =>
    rw [List.forall_mem_cons] at hlines
    rw [List.flatMap_cons, List.append_assoc, List.singleton_append, segments_append hlines.1,
      ih hlines.2]

theorem Closed.nil : Closed [] := ⟨[], List.forall_mem_nil _, rfl⟩

theorem Closed.append {text text' : Str} (h : Closed text) (h' : Closed text') :
    Closed (text ++ text') := by
  obtain ⟨lines, hlines, rfl⟩ := h
  obtain ⟨lines', hlines', rfl⟩ := h'
  exact ⟨lines ++ lines', List.forall_mem_append.mpr ⟨hlines, hlines'⟩, List.flatMap_append.symm⟩

/-- A text and a newline. -/
theorem Closed.newline (text : Str) : Closed (text ++ [10]) := by
  generalize hn : text.length = n
  induction n using Nat.strong_induction_on generalizing text with
  | _ n ih =>
    by_cases hnewline : 10 ∈ text
    · obtain ⟨line, rest, rfl, hline⟩ := List.eq_append_cons_of_mem hnewline
      obtain ⟨lines, hlines, hrest⟩ := ih rest.length (by simp at hn; omega) rest rfl
      refine ⟨line :: lines, List.forall_mem_cons.mpr ⟨hline, hlines⟩, ?_⟩
      rw [List.flatMap_cons, ← hrest]
      simp
    · exact ⟨[text], List.forall_mem_singleton.mpr hnewline, by simp⟩

theorem LogEntry.closed_text (e : LogEntry) (singleLog : Bool) (ts : Str) :
    Closed (e.text singleLog ts) := .newline _

/-! ## the two loops over the newlines -/

theorem countNewlines_append {line : Str} (hline : 10 ∉ line) (rest : List UInt8) (linect : Nat) :
    countNewlines (line ++ 10 :: rest) linect = countNewlines rest (linect + 1) := by
  induction line with
  | nil => rfl
  | cons c line ih =>
    rw [List.mem_cons, not_or] at hline
    rw [List.cons_append, countNewlines, if_neg (Ne.symm hline.1), ih hline.2]

theorem countNewlines_flatMap {lines : List Str} (hlines : ∀ line ∈ lines, 10 ∉ line)
    (linect : Nat) : countNewlines (lines.flatMap (· ++ [10])) linect = linect + lines.length := by
  induction lines generalizing linect with
  | nil => rfl
  | cons line lines ih =>
    rw [List.forall_mem_cons] at hlines
    rw [List.flatMap_cons, List.append_assoc, List.singleton_append, countNewlines_append hlines.1,
      ih hlines.2, List.length_cons]
    omega

theorem skipLines_append {line : Str} (hline : 10 ∉ line) (skip : Nat) (rest : List UInt8)
    (linect2 : Nat) : skipLines skip (line ++ 10 :: rest) linect2 =
      if linect2 + 1 = skip then rest else skipLines skip rest (linect2 + 1) := by
  induction line with
  | nil => rfl
  | cons c line ih =>
    rw [List.mem_cons, not_or] at hline
    rw [List.cons_append, skipLines, if_neg (Ne.symm hline.1), ih hline.2]

/-- The lines that are skipped. -/
theorem skipLines_flatMap {lines : List Str} (hlines : ∀ line ∈ lines, 10 ∉ line) {skip : Nat}
    {linect2 : Nat} (hskip : linect2 < skip) (hle : skip ≤ linect2 + lines.length) :
    skipLines skip (lines.flatMap (· ++ [10])) linect2 =
      (lines.drop (skip - linect2)).flatMap (· ++ [10]) := by
  induction lines generalizing linect2 with
  | nil =>
    rw [List.length_nil] at hle
    omega
  | cons line lines ih =>
    rw [List.forall_mem_cons] at hlines
    rw [List.length_cons] at hle
    rw [List.flatMap_cons, List.append_assoc, List.singleton_append, skipLines_append hlines.1]
    obtain ⟨k, hk⟩ := Nat.exists_eq_add_of_lt hskip
    have hdrop : skip - linect2 = k + 1 := by omega
    rw [hdrop, List.drop_succ_cons]
    split
    · have hzero : k = 0 := by omega
      rw [hzero, List.drop_zero]
    · rw [ih hlines.2 (by omega) (by omega)]
      have hrest : skip - (linect2 + 1) = k := by omega
      rw [hrest]

/-! ## a piece is shown -/

/-- A piece without its newline. -/
def unline (piece : List UInt8) : Str :=
  if piece.getLast? = some 10 then piece.dropLast else piece

/-- How a line is shown: its first 24 characters, if there are more and one of
the line is a colon, and the rest behind them. -/
def shownLine (screenCols : Int) (line : Str) : List Shown :=
  let text := if 24 < line.length ∧ 58 ∈ line then line.drop 24 else line
  let stamp := if 24 < line.length ∧ 58 ∈ line then line.take 24 else List.replicate 24 32
  printf stamp ++ printLines (plainWrap screenCols 24).print true
    (layout (plainWrap screenCols 24) [] text).lines

theorem chop_unline {piece : List UInt8} (hne : piece ≠ []) :
    chop 10 1 piece = some (unline piece) := by
  rcases List.eq_nil_or_concat piece with rfl | ⟨text, c, rfl⟩
  · exact absurd rfl hne
  · have hchop := chop_append 10 c text []
    rw [List.length_nil] at hchop
    rw [List.concat_eq_append, hchop, unline, List.getLast?_concat, List.dropLast_concat]
    simp only [Option.some_inj]

/-- `strncpy` of the first characters of a string. -/
theorem HoldsStr.strncpyBytes_eq {buf : List UInt8} {s : Str} (h : HoldsStr buf s) {n i : Nat}
    (hn : i + n ≤ s.length) : strncpyBytes buf i n = .ok ((s.drop i).take n) := by
  induction n generalizing i with
  | zero => rw [List.take_zero]; rfl
  | succ n ih =>
    have hi : i < s.length := by omega
    have hc : s[i] ≠ 0 := fun h0 => h.no_nul (h0 ▸ List.getElem_mem hi)
    rw [strncpyBytes, h.peek_eq hi, ok_bind, if_neg hc, ih (by omega),
      List.drop_eq_getElem_cons hi]
    rfl

/-- **A piece** is shown as a line. -/
theorem showPiece_eq (malloc : (n : Nat) → Vector UInt8 n) (screenCols : Int)
    {buf piece : List UInt8} (hbuf : buf.length = 1024) (hpiece : piece ≠ [])
    (hlen : piece.length ≤ 1023) (hnul : 0 ∉ piece) (out : List Shown) :
    ∃ buf', showPiece malloc screenCols (buf, out) piece =
        .ok (buf', out ++ shownLine screenCols (unline piece)) ∧ buf'.length = 1024 := by
  obtain ⟨buf₁, hstore, hheld, hlen₁⟩ := @storeN_line buf piece (by omega)
  rw [cstr_of_no_nul hnul] at hheld
  obtain ⟨buf₂, hcut, hheld₂, hlen₂⟩ := hheld.cutEnd_some (by decide) (chop_unline hpiece)
  have hcolon := hheld₂.strchr_eq (c := 58) (by decide)
  have hwrap {text : Str} (htext : 0 ∉ text) := wordwrapPrint_eq malloc screenCols 24 htext
  rw [showPiece, hstore, ok_bind, hcut, ok_bind, hheld₂.bufLen_eq, ok_bind, hcolon, ok_bind]
  have hsome : (if 58 ∈ unline piece then
      some ((unline piece).takeWhile (· ≠ 58)).length else none).isSome = true ↔
      58 ∈ unline piece := by
    split <;> simp [*]
  simp only [hsome]
  refine ⟨buf₂, ?_, by rw [hlen₂, hlen₁, hbuf]⟩
  rw [shownLine]
  by_cases hstamp : 24 < (unline piece).length ∧ 58 ∈ unline piece
  · obtain ⟨tmp, hcopy, hheld₃, -⟩ := @storeN_cleared ((unline piece).take 24)
      (fun h => hheld₂.no_nul (List.mem_of_mem_take h)) 25
      (by rw [List.length_take]; omega)
    have hbytes := hheld₂.strncpyBytes_eq (n := 24) (i := 0) (by omega)
    rw [List.drop_zero] at hbytes
    have hdrop : 0 ∉ (unline piece).drop 24 := fun h => hheld₂.no_nul (List.mem_of_mem_drop h)
    rw [if_pos hstamp, if_pos hstamp, if_pos hstamp, strncpy, hbytes, ok_bind, hcopy, ok_bind,
      HoldsStr.strAt_eq (i := 0) (by rwa [List.drop_zero]), ok_bind,
      hheld₂.strAt_drop hstamp.1.le, ok_bind, hwrap hdrop, ok_bind, List.append_assoc]
    rfl
  · rw [if_neg hstamp, if_neg hstamp, if_neg hstamp,
      HoldsStr.strAt_eq (i := 0) (by rwa [List.drop_zero]), ok_bind, hwrap hheld₂.no_nul, ok_bind,
      List.append_assoc]
    rfl

/-! ## a file is shown -/

/-- How a line of a file is shown: in pieces of 1023 bytes, if it is longer. -/
def shownFileLine (screenCols : Int) (line : Str) : List Shown :=
  (pieces 1022 (line ++ [10])).flatMap fun piece => shownLine screenCols (unline piece)

/-- The third loop. -/
theorem foldlM_showPiece (malloc : (n : Nat) → Vector UInt8 n) (screenCols : Int)
    {ps : List (List UInt8)} (hps : ∀ piece ∈ ps, piece ≠ [] ∧ piece.length ≤ 1023 ∧ 0 ∉ piece)
    {buf : List UInt8} (hbuf : buf.length = 1024) (out : List Shown) :
    ∃ buf', ps.foldlM (showPiece malloc screenCols) (buf, out) =
      .ok (buf', out ++ ps.flatMap fun piece => shownLine screenCols (unline piece)) := by
  induction ps generalizing buf out with
  | nil => exact ⟨buf, by rw [List.flatMap_nil, List.append_nil]; rfl⟩
  | cons piece ps ih =>
    rw [List.forall_mem_cons] at hps
    obtain ⟨hpiece, hlen, hnul⟩ := hps.1
    obtain ⟨buf₁, hshow, hbuf₁⟩ := showPiece_eq malloc screenCols hbuf hpiece hlen hnul out
    obtain ⟨buf', hrest⟩ := ih hps.2 hbuf₁ (out ++ shownLine screenCols (unline piece))
    exact ⟨buf', by rw [List.foldlM_cons, hshow, ok_bind, hrest, List.flatMap_cons,
      List.append_assoc]⟩

/-- **`show_log`** shows the last lines of a file. -/
theorem showLog_eq (malloc : (n : Nat) → Vector UInt8 n) (screenCols : Int) (d : LogDir)
    {files : Files} {sn : Str} {log : List UInt8} (hlog : (files (d.logFile sn)).getD [] = log)
    (hclosed : Closed log) (hnul : 0 ∉ log) (lines : Nat) :
    showLog malloc screenCols d files lines sn =
      .ok (printf [10] ++ ((segments log).drop ((segments log).length - lines)).flatMap
        (shownFileLine screenCols)) := by
  obtain ⟨L, hL, rfl⟩ := hclosed
  rw [segments_flatMap hL, showLog]
  cases hfile : files (d.logFile sn) with
  | none =>
    rw [hfile, Option.getD_none] at hlog
    have hnone : L = [] := by
      cases L with
      | nil => rfl
      | cons line L => simp at hlog
    rw [hnone, List.drop_nil, List.flatMap_nil, List.append_nil]
    rfl
  | some logfile =>
    rw [hfile, Option.getD_some] at hlog
    -- what the second loop leaves
    have hskip : (if lines < countNewlines logfile 0 then
        skipLines (countNewlines logfile 0 - lines) logfile 0 else logfile) =
        (L.drop (L.length - lines)).flatMap (· ++ [10]) := by
      rw [hlog, countNewlines_flatMap hL, Nat.zero_add]
      split
      · rw [skipLines_flatMap hL (by omega) (by omega), Nat.sub_zero]
      · rw [Nat.sub_eq_zero_of_le (by omega), List.drop_zero]
    have hrest : ∀ line ∈ L.drop (L.length - lines), 10 ∉ line :=
      fun line hline => hL line (List.mem_of_mem_drop hline)
    have hpieces : ∀ piece ∈ pieces 1022 ((L.drop (L.length - lines)).flatMap (· ++ [10])),
        piece ≠ [] ∧ piece.length ≤ 1023 ∧ 0 ∉ piece := by
      intro piece hpiece
      obtain ⟨hpos, hlen⟩ := length_of_mem_pieces hpiece
      refine ⟨List.ne_nil_of_length_pos hpos, hlen, fun hmem => hnul ?_⟩
      have hin := List.mem_flatten.mpr ⟨piece, hpiece, hmem⟩
      rw [pieces_flatten] at hin
      obtain ⟨line, hline, hbyte⟩ := List.mem_flatMap.mp hin
      exact List.mem_flatMap.mpr ⟨line, List.mem_of_mem_drop hline, hbyte⟩
    obtain ⟨buf', hloop⟩ := foldlM_showPiece malloc screenCols hpieces
      (show (malloc 1024).toList.length = 1024 from Vector.length_toList) (printf [10])
    simp only [hskip]
    rw [forPieces_eq _ 1022 (Nat.lt_succ_self _), hloop, ok_bind, pieces_lines hrest,
      List.flatMap_assoc]
    rfl

/-! ## what was logged is shown -/

/-- A buddy whose log is known by his name: it is in the directory, under a
name that is not cut. -/
structure LogDir.Plain (d : LogDir) (sn : Str) : Prop where
  fits : (d.fullName sn).length < pathMax
  slash : d.singleLog = true ∨ 47 ∉ sn

theorem LogDir.Plain.logFile_eq {d : LogDir} {sn : Str} (h : d.Plain sn) :
    d.logFile sn = d.file (d.fullName sn) := by
  rw [LogDir.logFile, LogDir.userLog, List.take_of_length_le (Nat.le_sub_one_of_lt h.fits)]

theorem LogDir.logFile_eq_iff {d : LogDir} {sn sn' : Str} (h : d.Plain sn) (h' : d.Plain sn') :
    d.logFile sn = d.logFile sn' ↔ d.singleLog = true ∨ sn = sn' := by
  rw [h.logFile_eq, h'.logFile_eq, LogDir.fullName, LogDir.fullName]
  cases hsingle : d.singleLog with
  | true => simp
  | false =>
    have hsn := h.slash.resolve_left (by simp [hsingle])
    have hsn' := h'.slash.resolve_left (by simp [hsingle])
    simp only [Bool.false_eq_true, if_false, false_or]
    exact ⟨d.apart sn sn' hsn hsn', fun heq => heq ▸ rfl⟩

/-- What was written for a buddy. -/
def LogDir.written (d : LogDir) (entries : List (Str × LogEntry)) (sn : Str) : List UInt8 :=
  (entries.filter fun e => d.singleLog ∨ e.2.sn = sn).flatMap fun e => e.2.text d.singleLog e.1

/-- The writes of a run. -/
theorem foldl_write (d : LogDir) (files : Files) {entries : List (Str × LogEntry)} {sn : Str}
    (hplain : d.Plain sn) (hplains : ∀ e ∈ entries, d.Plain e.2.sn)
    (hopens : d.refuses (d.userLog sn) = false) :
    ((entries.foldl d.write files) (d.logFile sn)).getD [] =
      (files (d.logFile sn)).getD [] ++ d.written entries sn := by
  induction entries generalizing files with
  | nil => exact (List.append_nil _).symm
  | cons e entries ih =>
    rw [List.forall_mem_cons] at hplains
    have hname := LogDir.logFile_eq_iff hplains.1 hplain
    have hfirst : (d.write files e (d.logFile sn)).getD [] = (files (d.logFile sn)).getD [] ++
        if d.singleLog ∨ e.2.sn = sn then e.2.text d.singleLog e.1 else [] := by
      rw [LogDir.write]
      by_cases hsame : d.logFile e.2.sn = d.logFile sn
      · have hpath : d.userLog e.2.sn = d.userLog sn := by
          rw [LogDir.userLog, LogDir.userLog, LogDir.fullName, LogDir.fullName]
          rcases hname.mp hsame with hsingle | hsn
          · rw [if_pos hsingle, if_pos hsingle]
          · rw [hsn]
        rw [if_pos (hname.mp hsame), hpath, hopens, hsame, if_neg Bool.false_ne_true,
          Function.update_self]
        rfl
      · rw [if_neg (mt hname.mpr hsame), List.append_nil]
        split
        · rfl
        · rw [Function.update_of_ne (Ne.symm hsame)]
    rw [List.foldl_cons, ih _ hplains.2, hfirst, LogDir.written, LogDir.written,
      List.filter_cons, List.append_assoc]
    split <;> simp_all

theorem LogDir.closed_written (d : LogDir) (entries : List (Str × LogEntry)) (sn : Str) :
    Closed (d.written entries sn) := by
  rw [LogDir.written]
  generalize entries.filter _ = es
  induction es with
  | nil => exact .nil
  | cons e es ih => exact (e.2.closed_text d.singleLog e.1).append ih

/-- The strings of an entry, and of the time. -/
structure LogEntry.NoNul (e : LogEntry) (ts : Str) : Prop where
  sn : 0 ∉ e.sn
  msg : ∀ msg ∈ e.msg, 0 ∉ msg
  ts : 0 ∉ ts

theorem LogEntry.NoNul.text {e : LogEntry} {ts : Str} (h : e.NoNul ts) (singleLog : Bool) :
    0 ∉ e.text singleLog ts := by
  have hmsg : 0 ∉ e.msg.getD (ascii "(null)") := by
    cases hm : e.msg with
    | none => decide
    | some msg => exact h.msg msg hm
  have hsn := h.sn
  have hts := h.ts
  rw [LogEntry.text]
  cases e.event <;> cases singleLog <;> simp [hts, hsn, hmsg] <;> decide

theorem LogDir.no_nul_written (d : LogDir) {entries : List (Str × LogEntry)}
    (hentries : ∀ e ∈ entries, e.2.NoNul e.1) (sn : Str) : 0 ∉ d.written entries sn := by
  intro h
  obtain ⟨e, he, hbyte⟩ := List.mem_flatMap.mp h
  exact (hentries e (List.mem_of_mem_filter he)).text d.singleLog hbyte

/-- **A line of a conversation** is shown behind its time and its arrow. -/
theorem shownFileLine_stamp (screenCols : Int) {stamp msg : Str} (hstamp : stamp.length = 24)
    (hcolon : 58 ∈ stamp) (hline : 10 ∉ stamp) (hmsg : 10 ∉ msg) (hne : msg ≠ [])
    (hfit : msg.length ≤ 998) :
    shownFileLine screenCols (stamp ++ msg) =
      printf stamp ++ printLines (plainWrap screenCols 24).print true
        (layout (plainWrap screenCols 24) [] msg).lines := by
  have hpos := List.length_pos_of_ne_nil hne
  have hwhole : 10 ∉ stamp ++ msg := fun h => (List.mem_append.mp h).elim hline hmsg
  have hpiece := pieces_append hwhole (n := 1022)
    (by rw [List.length_append, hstamp]; omega) []
  have hcut : unline (stamp ++ msg ++ [10]) = stamp ++ msg := by
    rw [unline, List.getLast?_concat, List.dropLast_concat, if_pos rfl]
  have hlong : 24 < (stamp ++ msg).length ∧ 58 ∈ stamp ++ msg := by
    rw [List.length_append, hstamp]
    exact ⟨by omega, List.mem_append_left msg hcolon⟩
  rw [shownFileLine, hpiece, pieces_nil, List.flatMap_singleton, hcut, shownLine, if_pos hlong,
    if_pos hlong, List.take_left' hstamp, List.drop_left' hstamp]

/-- Whose log `l` shows. -/
def whoseLog (lastsn : Option Str) (arg : Str) : Option Str :=
  if arg = ascii "l" then lastsn else some arg

/-- **The log of a buddy.**  A client has run, and what it logged was written
at some times behind what had been in the files.  Then `l` shows the last
twenty lines that are there for the buddy. -/
theorem log_shown (malloc : (n : Nat) → Vector UInt8 n) (screenCols : Int) {d : LogDir}
    {files : Files} {c : Client} {entries : List (Str × LogEntry)} {arg sn : Str}
    (hlogged : entries.map Prod.snd = c.entries) (hsn : whoseLog c.conn.lastsn arg = some sn)
    (hplain : d.Plain sn) (hplains : ∀ e ∈ c.entries, d.Plain e.sn)
    (hopens : d.refuses (d.userLog sn) = false)
    (hclosed : Closed ((files (d.logFile sn)).getD []))
    (hold : 0 ∉ (files (d.logFile sn)).getD []) (hnew : ∀ e ∈ entries, e.2.NoNul e.1) :
    let log := (files (d.logFile sn)).getD [] ++ d.written entries sn
    inputShowLog malloc screenCols d (entries.foldl d.write files) c.conn.lastsn arg =
      .ok (printf [10] ++ ((segments log).drop ((segments log).length - 20)).flatMap
        (shownFileLine screenCols)) := by
  intro log
  rw [← hlogged, List.forall_mem_map] at hplains
  have hlog := foldl_write d files hplain hplains hopens
  have hnul : 0 ∉ log := fun h => (List.mem_append.mp h).elim hold (d.no_nul_written hnew sn)
  have hshow := showLog_eq malloc screenCols d hlog (hclosed.append (d.closed_written entries sn))
    hnul 20
  unfold inputShowLog
  rw [whoseLog] at hsn
  by_cases hl : arg = ascii "l"
  · rw [if_pos hl] at hsn ⊢
    rw [hsn]
    exact hshow
  · rw [if_neg hl, Option.some_inj] at hsn
    rw [if_neg hl, hsn]
    exact hshow

/-- One file for each buddy, and all of them open. -/
def logsHere : LogDir where
  singleLog := false
  logpath := ascii "log"
  file := id
  refuses := fun _ => false
  apart := fun _ _ _ _ h => List.append_cancel_left (List.append_cancel_right h)

/-- Three lines that alice logged, with their times, and eve is one of the two
who wrote. -/
def daysLog : List (Str × LogEntry) :=
  [(ascii "08/01/2009 10:00:00", ⟨.im, ascii "bob", some (ascii "lunch?")⟩),
    (ascii "08/01/2009 10:00:05", ⟨.im, ascii "eve", some (ascii "psst")⟩),
    (ascii "08/01/2009 10:00:20", ⟨.imsend, ascii "bob", some (ascii "ok")⟩)]

theorem log_shown_bob :
    inputShowLog (fun n => Vector.replicate n 255) 80 logsHere
        (daysLog.foldl logsHere.write fun _ => none) (some (ascii "bob")) (ascii "l") =
      .ok (printf (ascii "\n08/01/2009 10:00:00: <- lunch?\n08/01/2009 10:00:20: -> ok\n")) := by
  have hnew : ∀ e ∈ daysLog, e.2.NoNul e.1 := by
    intro e he
    simp only [daysLog, List.mem_cons, List.not_mem_nil, or_false] at he
    obtain rfl | rfl | rfl := he <;> exact ⟨by decide, by decide, by decide⟩
  have hplain {sn : Str} (hsn : sn = ascii "bob" ∨ sn = ascii "eve") : logsHere.Plain sn := by
    obtain rfl | rfl := hsn <;> exact ⟨by decide, .inr (by decide)⟩
  have hshown := @log_shown (fun n => Vector.replicate n 255) 80 logsHere (fun _ => none)
    { startClient with
      conn := { startClient.conn with lastsn := some (ascii "bob") }
      trace := (daysLog.map fun e => Traced.logged e.2.event e.2.sn e.2.msg).reverse }
    daysLog (ascii "l") (ascii "bob") (by decide) rfl (hplain (.inl rfl))
    (fun e he => hplain (by revert e; decide)) rfl .nil (by decide) hnew
  have hlunch := @shownFileLine_stamp 80 (ascii "08/01/2009 10:00:00: <- ") (ascii "lunch?")
    (by decide) (by decide) (by decide) (by decide) (by decide) (by decide)
  have hok := @shownFileLine_stamp 80 (ascii "08/01/2009 10:00:20: -> ") (ascii "ok")
    (by decide) (by decide) (by decide) (by decide) (by decide) (by decide)
  have hlines : printf [10] ++ [ascii "08/01/2009 10:00:00: <- " ++ ascii "lunch?",
      ascii "08/01/2009 10:00:20: -> " ++ ascii "ok"].flatMap (shownFileLine 80) =
      printf (ascii "\n08/01/2009 10:00:00: <- lunch?\n08/01/2009 10:00:20: -> ok\n") := by
    rw [List.flatMap_cons, List.flatMap_singleton, hlunch, hok]
    decide
  exact hshown.trans (congrArg Except.ok hlines)

end Bsflite
