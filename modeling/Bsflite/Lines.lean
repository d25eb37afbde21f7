import Bsflite.Config

/-!
# Bsflite.Lines

A stream that is read by `fgets` until nothing is left.  `pieces n` are what a
buffer of `n + 2` bytes gets, call by call: lines with their newline, and of a
line that is too long as much as there is room for.

* `forPieces_eq` — a loop over a file is a fold over its pieces.
* `pieces_append`, `pieces_flatMap` — lines that fit are read one by one.
* `pieces_lines` — any lines are.
-/

namespace Bsflite

/-- A call takes at least one byte. -/
theorem fgets_append (n : Nat) (stream : List UInt8) :
    (fgets n stream).1 ++ (fgets n stream).2 = stream := by
  induction n generalizing stream with
  | zero => rfl
  | succ n ih =>
    cases stream with
    | nil => rfl
    | cons c stream =>
      rw [fgets]
      split
      · rfl
      · exact congrArg (c :: ·) (ih stream)

theorem length_fgets_le (n : Nat) (stream : List UInt8) : (fgets n stream).1.length ≤ n := by
  induction n generalizing stream with
  | zero => exact Nat.le_refl 0
  | succ n ih =>
    cases stream with
    | nil => exact Nat.zero_le _
    | cons c stream =>
      rw [fgets]
      split
      · exact Nat.succ_le_succ (Nat.zero_le n)
      · exact Nat.succ_le_succ (ih stream)

theorem fgets_ne_nil (n : Nat) {stream : List UInt8} (hne : stream ≠ []) :
    (fgets (n + 1) stream).1 ≠ [] := by
  obtain ⟨c, stream, rfl⟩ := List.exists_cons_of_ne_nil hne
  rw [fgets]
  split <;> exact List.cons_ne_nil c _

theorem length_fgets_lt (n : Nat) {stream : List UInt8} (hne : stream ≠ []) :
    (fgets (n + 1) stream).2.length < stream.length := by
  have happend := congrArg List.length (fgets_append (n + 1) stream)
  have hpos := List.length_pos_of_ne_nil (fgets_ne_nil n hne)
  rw [List.length_append] at happend
  omega

/-- What the calls of `fgets` store, one after the other. -/
def pieces (n : Nat) (stream : List UInt8) : List (List UInt8) :=
  if h : stream = [] then []
  else (fgets (n + 1) stream).1 :: pieces n (fgets (n + 1) stream).2
termination_by stream.length
decreasing_by exact length_fgets_lt n h

@[simp] theorem pieces_nil (n : Nat) : pieces n [] = [] := by rw [pieces, dif_pos rfl]

theorem pieces_eq (n : Nat) {stream : List UInt8} (hne : stream ≠ []) :
    pieces n stream = (fgets (n + 1) stream).1 :: pieces n (fgets (n + 1) stream).2 := by
  rw [pieces, dif_neg hne]

/-- No byte is lost. -/
theorem pieces_flatten (n : Nat) (stream : List UInt8) : (pieces n stream).flatten = stream := by
  fun_induction pieces n stream with
  | case1 => rfl
  | case2 stream hne ih => rw [List.flatten_cons, ih, fgets_append]

/-- A piece fits, and is not empty. -/
theorem length_of_mem_pieces {n : Nat} {stream piece : List UInt8}
    (hmem : piece ∈ pieces n stream) : 0 < piece.length ∧ piece.length ≤ n + 1 := by
  fun_induction pieces n stream with
  | case1 => simp at hmem
  | case2 stream hne ih =>
    rcases List.mem_cons.mp hmem with rfl | hmem
    · exact ⟨List.length_pos_of_ne_nil (fgets_ne_nil n hne), length_fgets_le _ _⟩
    · exact ih hmem

/-- `fgets` takes a line that fits, and no more. -/
theorem fgets_line {line : List UInt8} (hline : 10 ∉ line) {n : Nat} (hfit : line.length ≤ n)
    (rest : List UInt8) : fgets (n + 1) (line ++ 10 :: rest) = (line ++ [10], rest) := by
  induction line generalizing n with
  | nil => rfl
  | cons c line ih =>
    have hc : c ≠ 10 := fun h => hline (h ▸ List.mem_cons_self)
    obtain ⟨n, rfl⟩ := Nat.exists_eq_add_one_of_ne_zero (Nat.ne_zero_of_lt hfit)
    rw [List.cons_append, fgets, if_neg hc,
      ih (fun h => hline (List.mem_cons_of_mem c h)) (Nat.le_of_succ_le_succ hfit)]
    rfl

/-- A line that fits is a piece. -/
theorem pieces_append {line : List UInt8} (hline : 10 ∉ line) {n : Nat} (hfit : line.length ≤ n)
    (rest : List UInt8) : pieces n (line ++ 10 :: rest) = (line ++ [10]) :: pieces n rest := by
  rw [pieces_eq n (by simp), fgets_line hline hfit]

/-- `fgets` of a line that does not fit. -/
theorem fgets_long {line : List UInt8} (hline : 10 ∉ line) {n : Nat} (hlong : n ≤ line.length)
    (rest : List UInt8) :
    fgets n (line ++ 10 :: rest) = (line.take n, line.drop n ++ 10 :: rest) := by
  induction n generalizing line with
  | zero => rfl
  | succ n ih =>
    obtain ⟨c, line, rfl⟩ := List.exists_cons_of_length_pos (Nat.zero_lt_of_lt hlong)
    rw [List.mem_cons, not_or] at hline
    rw [List.cons_append, fgets, if_neg (Ne.symm hline.1),
      ih hline.2 (Nat.le_of_succ_le_succ hlong)]
    rfl

/-- No piece goes beyond the end of a line. -/
theorem pieces_line {line : List UInt8} (hline : 10 ∉ line) (n : Nat) (rest : List UInt8) :
    pieces n (line ++ 10 :: rest) = pieces n (line ++ [10]) ++ pieces n rest := by
  generalize hm : line.length = m
  induction m using Nat.strong_induction_on generalizing line with
  | _ m ih =>
    by_cases hfit : line.length ≤ n
    · rw [pieces_append hline hfit, pieces_append hline hfit, pieces_nil]
      rfl
    · have hlong : n + 1 ≤ line.length := Nat.lt_of_not_le hfit
      have hrest := ih (line.drop (n + 1)).length (by rw [List.length_drop]; omega)
        (fun h => hline (List.mem_of_mem_drop h)) rfl
      have hwhole := pieces_eq n (show line ++ 10 :: rest ≠ [] by simp)
      have hpart := pieces_eq n (show line ++ [10] ≠ [] by simp)
      rw [fgets_long hline hlong] at hwhole hpart
      rw [hwhole, hpart, hrest, List.cons_append]

theorem pieces_lines {lines : List (List UInt8)} (hlines : ∀ line ∈ lines, 10 ∉ line) (n : Nat) :
    pieces n (lines.flatMap (· ++ [10])) = lines.flatMap fun line => pieces n (line ++ [10]) := by
  induction lines with
  | nil => rw [List.flatMap_nil, List.flatMap_nil, pieces_nil]
  | cons line lines ih =>
    rw [List.forall_mem_cons] at hlines
    rw [List.flatMap_cons, List.flatMap_cons, List.append_assoc, List.singleton_append,
      pieces_line hlines.1, ih hlines.2]

/-- A file of lines that fit. -/
theorem pieces_flatMap {lines : List (List UInt8)} (hlines : ∀ line ∈ lines, 10 ∉ line) {n : Nat}
    (hfit : ∀ line ∈ lines, line.length ≤ n) (rest : List UInt8) :
    pieces n (lines.flatMap (· ++ [10]) ++ rest) = lines.map (· ++ [10]) ++ pieces n rest := by
  induction lines with
  | nil => rfl
  | cons line lines ih =>
    rw [List.forall_mem_cons] at hlines hfit
    rw [List.flatMap_cons, List.append_assoc, List.append_assoc, List.singleton_append,
      pieces_append hlines.1 hfit.1, ih hlines.2 hfit.2]
    rfl

/-- `while (!feof(file)) { if (fgets(buf, n, file) == NULL) break; … }` -/
def forPieces {σ : Type} (body : σ → List UInt8 → Except Fault σ) (n : Nat) :
    Nat → List UInt8 → σ → Except Fault σ
  | 0, _, _ => .error .hang
  | fuel + 1, stream, s =>
    if stream = [] then return s
    else do
      let (piece, rest) := fgets n stream
      let s ← body s piece
      forPieces body n fuel rest s

/-- A loop over a file is a fold over its pieces. -/
theorem forPieces_eq {σ : Type} (body : σ → List UInt8 → Except Fault σ) (n : Nat) {fuel : Nat}
    {stream : List UInt8} (hfuel : stream.length < fuel) (s : σ) :
    forPieces body (n + 1) fuel stream s = (pieces n stream).foldlM body s := by
  induction fuel generalizing stream s with
  | zero => exact absurd hfuel (Nat.not_lt_zero _)
  | succ fuel ih =>
    rw [forPieces]
    by_cases hne : stream = []
    · rw [if_pos hne, hne, pieces_nil]
      rfl
    · rw [if_neg hne, pieces_eq n hne, List.foldlM_cons]
      refine bind_congr fun s' => ih ?_ s'
      exact Nat.lt_of_lt_of_le (length_fgets_lt n hne) (Nat.le_of_lt_succ hfuel)

end Bsflite
