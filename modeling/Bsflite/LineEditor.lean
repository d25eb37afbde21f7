import Bsflite.Paste

/-!
# Bsflite.LineEditor

`bsf_getline` as an editor of one line: keys are typed, a backspace takes the
last character away, and the line ends with return, when the buffer is full,
or with Ctrl-X.

* `lineEditor` — what the keys do to a line, without any memory.
* `bsfGetlineBlock_edits` — `bsf_getline` is that editor while no key erases
  from an empty line.
* `bsfGetlineBlock_wraps` — such a key makes its count wrap.
* `line_editor_iff` — so it is that editor exactly when there is none.
-/

namespace Bsflite

/-! ## the editor -/

/-- Return. -/
def isReturn (ch : UInt8) : Bool := ch = 10 ∨ ch = 13

/-- Backspace, delete, or Ctrl-D. -/
def isErase (ch : UInt8) : Bool := ch = 8 ∨ ch = 127 ∨ ch = 4

/-- What a key does to the line; there is nothing to erase from an empty
one. -/
def typeKey (line : Str) (ch : UInt8) : Str :=
  if isErase ch then line.dropLast else line ++ [ch]

/-- How the input of a line ends, and the keys left. -/
inductive LineEnd where
  | waiting
  /-- Ctrl-X -/
  | cancelled (left : List UInt8)
  | returned (line : Str) (left : List UInt8)
deriving DecidableEq

/-- The keys are typed one by one, until there are `limit` characters. -/
def lineEditor (limit : Nat) (line : Str) : List UInt8 → LineEnd
  | [] => if line.length < limit then .waiting else .returned line []
  | ch :: keys =>
    if line.length < limit then
      if isReturn ch then .returned line keys
      else if ch = 24 then .cancelled keys
      else lineEditor limit (typeKey line ch) keys
    else .returned line (ch :: keys)

/-- A key that is read while the line is empty erases. -/
def ErasesNothing (limit : Nat) (line : Str) (keys : List UInt8) : Prop :=
  ∃ (typed : List UInt8) (ch : UInt8) (rest : List UInt8), keys = typed ++ ch :: rest ∧
    lineEditor limit line typed = .waiting ∧ isErase ch ∧ typed.foldl typeKey line = []

/-- An erasing key is neither return nor Ctrl-X. -/
theorem isErase_plain {ch : UInt8} (h : isErase ch) : ¬ isReturn ch ∧ ch ≠ 24 := by
  simp only [isErase, decide_eq_true_eq] at h
  rcases h with rfl | rfl | rfl <;> decide

theorem not_erasesNothing_nil (limit : Nat) (line : Str) : ¬ ErasesNothing limit line [] := by
  rintro ⟨typed, ch, rest, hkeys, -⟩
  simp at hkeys

/-- The first key, or a later one. -/
theorem erasesNothing_cons {limit : Nat} {line : Str} {ch : UInt8} {keys : List UInt8} :
    ErasesNothing limit line (ch :: keys) ↔ line.length < limit ∧
      (isErase ch ∧ line = [] ∨
        ¬ isReturn ch ∧ ch ≠ 24 ∧ ErasesNothing limit (typeKey line ch) keys) := by
  constructor
  · rintro ⟨typed, ch', rest, hkeys, hwait, herase, hempty⟩
    cases typed with
    | nil =>
        cases hkeys
        rw [lineEditor] at hwait
        split at hwait
        · next hroom => exact ⟨hroom, .inl ⟨herase, hempty⟩⟩
        · cases hwait
    | cons c typed =>
        cases hkeys
        rw [lineEditor] at hwait
        split at hwait
        · next hroom =>
          split at hwait
          · cases hwait
          · next hreturn =>
            split at hwait
            · cases hwait
            · next hcancel =>
              exact ⟨hroom, .inr ⟨hreturn, hcancel, typed, ch', rest, rfl, hwait, herase, hempty⟩⟩
        · cases hwait
  · rintro ⟨hroom, ⟨herase, rfl⟩ | ⟨hreturn, hcancel, typed, ch', rest, rfl, hwait, herase, hempty⟩⟩
    · exact ⟨[], ch, keys, rfl, by rw [lineEditor, if_pos hroom], herase, rfl⟩
    · refine ⟨ch :: typed, ch', rest, rfl, ?_, herase, hempty⟩
      rw [lineEditor, if_pos hroom, if_neg hreturn, if_neg hcancel, hwait]

/-! ## in memory -/

theorem isReturn_iff {ch : UInt8} : isReturn ch = true ↔ ch = 10 ∨ ch = 13 := by simp [isReturn]

theorem isErase_iff {ch : UInt8} : isErase ch = true ↔ ch = 8 ∨ ch = 127 ∨ ch = 4 := by
  simp [isErase]

/-- With `line` at the front of `str`, `bsf_getline` does what the editor does
to it, and writes to no byte behind the first `size` ones. -/
def EditsLine (size : Nat) (str : List UInt8) (line : Str) (keys : List UInt8) : Prop :=
  match lineEditor (size - 1) line keys with
  | .waiting => bsfGetlineBlock size str line.length keys = .ok (none, [])
  | .cancelled left => ∃ str',
      bsfGetlineBlock size str line.length keys = .ok (some (str', -1), left) ∧
        str'.drop size = str.drop size
  | .returned l left => ∃ str',
      bsfGetlineBlock size str line.length keys = .ok (some (str', (l.length : Int)), left) ∧
        terminated l <+: str' ∧ l.length < size ∧ str'.drop size = str.drop size

section
variable {size : Nat} {str line : List UInt8}

/-- The bound of the loop. -/
theorem sizeT_pred (hsize : 2 ≤ size) : sizeT ((size : Int) - 1) = size - 1 := by
  rw [sizeT_of_nonneg (by omega)]
  omega

/-- The end of a line. -/
theorem getlineEnd_edits (hstr : str.take line.length = line) (hline : line.length < size)
    (hblock : size ≤ str.length) (left : List UInt8) :
    ∃ str', (do
        let str ← storeN str line.length [0]
        return (some (str, (line.length : Int)), left)) =
          .ok (some (str', (line.length : Int)), left) ∧
      terminated line <+: str' ∧ line.length < size ∧ str'.drop size = str.drop size := by
  have hfit : line.length + [(0 : UInt8)].length ≤ str.length := by
    rw [List.length_singleton]
    omega
  refine ⟨poke str line.length [0], by rw [storeN_of_le hfit]; rfl, ?_, hline,
    drop_poke (by rw [List.length_singleton]; omega) hblock⟩
  have htake : (poke str line.length [0]).take (line.length + 1) = line ++ [0] := by
    rw [← List.length_singleton (a := (0 : UInt8)), take_poke (by omega), hstr]
  rw [terminated, ← htake]
  exact List.take_prefix _ _

/-- `bsf_getline` is the editor while no key erases from an empty line. -/
theorem bsfGetlineBlock_edits (hsize : 2 ≤ size) (keys : List UInt8) :
    ∀ {str line : List UInt8}, str.take line.length = line → line.length < size →
      size ≤ str.length → ¬ ErasesNothing (size - 1) line keys → EditsLine size str line keys := by
  have hlimit := sizeT_pred hsize
  induction keys with
  | nil =>
      intro str line hstr hline hblock hkeys
      rw [EditsLine, lineEditor, bsfGetlineBlock, hlimit]
      by_cases hroom : line.length < size - 1
      · rw [if_pos hroom, if_pos hroom]
        rfl
      · rw [if_neg hroom, if_neg hroom]
        exact getlineEnd_edits hstr hline hblock []
  | cons ch keys ih =>
      intro str line hstr hline hblock hkeys
      rw [EditsLine, lineEditor, bsfGetlineBlock, hlimit]
      by_cases hroom : line.length < size - 1
      · rw [if_pos hroom, if_pos hroom]
        by_cases hreturn : isReturn ch
        · rw [if_pos hreturn, if_pos (isReturn_iff.mp hreturn)]
          exact getlineEnd_edits hstr hline hblock keys
        · rw [if_neg hreturn, if_neg (mt isReturn_iff.mpr hreturn)]
          by_cases hcancel : ch = 24
          · rw [if_pos hcancel, if_pos hcancel]
            exact ⟨str, rfl, rfl⟩
          · rw [if_neg hcancel, if_neg hcancel]
            rw [erasesNothing_cons] at hkeys
            by_cases herase : isErase ch
            · -- there is a character to erase
              have hne : line ≠ [] := fun hnil => hkeys ⟨hroom, .inl ⟨herase, hnil⟩⟩
              have htype : typeKey line ch = line.dropLast := if_pos herase
              have hnext := ih (take_dropLast hstr) (by rw [List.length_dropLast]; omega) hblock
                (fun hrest => hkeys ⟨hroom, .inr ⟨hreturn, hcancel, by rwa [htype]⟩⟩)
              rw [if_pos (isErase_iff.mp herase), sizeT_dropLast hne, htype]
              exact hnext
            · have htype : typeKey line ch = line ++ [ch] := if_neg herase
              have hfit : line.length + [ch].length ≤ str.length := by
                rw [List.length_singleton]
                omega
              have hfront : (poke str line.length [ch]).take (line ++ [ch]).length =
                  line ++ [ch] := by
                rw [List.length_append, take_poke (by omega), hstr]
              have hbehind : (poke str line.length [ch]).drop size = str.drop size :=
                drop_poke (by rw [List.length_singleton]; omega) hblock
              have hnext := ih hfront
                (by rw [List.length_append, List.length_singleton]; omega)
                (by rw [length_poke hfit]; exact hblock)
                (fun hrest => hkeys ⟨hroom, .inr ⟨hreturn, hcancel, by rwa [htype]⟩⟩)
              rw [if_neg (mt isErase_iff.mpr herase), storeN_of_le hfit, ok_bind, htype]
              rw [EditsLine, hbehind, List.length_append, List.length_singleton] at hnext
              exact hnext
      · rw [if_neg hroom, if_neg hroom]
        exact getlineEnd_edits hstr hline hblock (ch :: keys)

/-- Behind a count that has wrapped there is no memory. -/
theorem bsfGetlineBlock_wrapped (hint : size < 2 ^ 31) (hmem : str.length < 2 ^ 64)
    (keys : List UInt8) : bsfGetlineBlock size str (sizeT (-1)) keys = .error .oob := by
  have hcount : sizeT (-1) = 2 ^ 64 - 1 := by decide
  have hfull : ¬ sizeT (-1) < sizeT ((size : Int) - 1) := by
    rw [hcount]
    by_cases hpos : 1 ≤ size
    · rw [sizeT_of_nonneg (by omega)]
      omega
    · have hzero : size = 0 := by omega
      subst hzero
      decide
  have hout : storeN str (sizeT (-1)) [0] = .error .oob := by
    rw [hcount, storeN, if_neg]
    simp
    omega
  cases keys with
  | nil =>
      rw [bsfGetlineBlock, if_neg hfull, hout]
      rfl
  | cons ch keys =>
      rw [bsfGetlineBlock, if_neg hfull, hout]
      rfl

/-- A key that erases from an empty line makes the count wrap, and the
terminator is stored outside the block. -/
theorem bsfGetlineBlock_wraps (hsize : 2 ≤ size) (hint : size < 2 ^ 31) (keys : List UInt8) :
    ∀ {str line : List UInt8}, line.length < size → size ≤ str.length → str.length < 2 ^ 64 →
      ErasesNothing (size - 1) line keys →
      bsfGetlineBlock size str line.length keys = .error .oob := by
  have hlimit := sizeT_pred hsize
  induction keys with
  | nil =>
      intro str line _ _ _ hkeys
      exact absurd hkeys (not_erasesNothing_nil _ _)
  | cons ch keys ih =>
      intro str line hline hblock hmem hkeys
      rw [erasesNothing_cons] at hkeys
      obtain ⟨hroom, ⟨herase, rfl⟩ | ⟨hreturn, hcancel, hrest⟩⟩ := hkeys
      · obtain ⟨hreturn, hcancel⟩ := isErase_plain herase
        rw [bsfGetlineBlock, hlimit, if_pos hroom, if_neg (mt isReturn_iff.mpr hreturn),
          if_neg hcancel, if_pos (isErase_iff.mp herase)]
        exact bsfGetlineBlock_wrapped hint hmem keys
      · rw [bsfGetlineBlock, hlimit, if_pos hroom, if_neg (mt isReturn_iff.mpr hreturn),
          if_neg hcancel]
        by_cases herase : isErase ch
        · by_cases hne : line = []
          · subst hne
            rw [if_pos (isErase_iff.mp herase)]
            exact bsfGetlineBlock_wrapped hint hmem keys
          · rw [if_pos (isErase_iff.mp herase), sizeT_dropLast hne]
            rw [typeKey, if_pos herase] at hrest
            exact ih (by rw [List.length_dropLast]; omega) hblock hmem hrest
        · have hfit : line.length + [ch].length ≤ str.length := by
            rw [List.length_singleton]
            omega
          rw [typeKey, if_neg herase] at hrest
          rw [if_neg (mt isErase_iff.mpr herase), storeN_of_le hfit, ok_bind]
          have hnext : bsfGetlineBlock size (poke str line.length [ch]) (line ++ [ch]).length keys =
              .error .oob :=
            ih (by rw [List.length_append, List.length_singleton]; omega)
              (by rw [length_poke hfit]; exact hblock) (by rw [length_poke hfit]; exact hmem) hrest
          rwa [List.length_append, List.length_singleton] at hnext

/-- **Line editor**: for a size of at least 2, `bsf_getline` is the editor of
an empty line if and only if no key that it reads erases from an empty line. -/
theorem line_editor_iff (hsize : 2 ≤ size) (hint : size < 2 ^ 31) (hblock : size ≤ str.length)
    (hmem : str.length < 2 ^ 64) (keys : List UInt8) :
    EditsLine size str [] keys ↔ ¬ ErasesNothing (size - 1) [] keys := by
  constructor
  · intro hedits hkeys
    have hout : bsfGetlineBlock size str ([] : Str).length keys = .error .oob :=
      bsfGetlineBlock_wraps hsize hint keys (by simp; omega) hblock hmem hkeys
    rw [EditsLine] at hedits
    cases hend : lineEditor (size - 1) [] keys with
    | waiting =>
        rw [hend, hout] at hedits
        cases hedits
    | cancelled left =>
        rw [hend] at hedits
        obtain ⟨str', hrun, -⟩ := hedits
        rw [hout] at hrun
        cases hrun
    | returned l left =>
        rw [hend] at hedits
        obtain ⟨str', hrun, -⟩ := hedits
        rw [hout] at hrun
        cases hrun
  · exact bsfGetlineBlock_edits hsize keys List.take_zero (by simp; omega) hblock

end

/-- "ab", a backspace, "c", and return, typed into a block of eight bytes. -/
theorem line_editor_iff_ac :
    EditsLine 8 (List.replicate 8 0) [] [97, 98, 8, 99, 10] ∧
      lineEditor 7 [] [97, 98, 8, 99, 10] = .returned [97, 99] [] := by
  refine ⟨(line_editor_iff (by decide) (by decide) (by decide) (by decide) _).mpr ?_, by decide⟩
  simp [erasesNothing_cons, not_erasesNothing_nil, isErase, isReturn, typeKey]

/-- A backspace first: the editor returns "a", `bsf_getline` does not. -/
theorem line_editor_backspace :
    ¬ ∀ (size : Nat) (str keys : List UInt8), 2 ≤ size → size < 2 ^ 31 → size ≤ str.length →
      str.length < 2 ^ 64 → EditsLine size str [] keys := by
  intro hall
  have hedits := hall 8 (List.replicate 8 0) [8, 97, 10] (by decide) (by decide) (by decide)
    (by decide)
  have hend : lineEditor (8 - 1) [] [8, 97, 10] = .returned [97] [] := by decide
  rw [EditsLine, hend] at hedits
  obtain ⟨str', hrun, -⟩ := hedits
  have hout : bsfGetlineBlock (8 : Nat) (List.replicate 8 0) ([] : Str).length [8, 97, 10] =
      .error .oob := by decide +kernel
  rw [hout] at hrun
  cases hrun

end Bsflite
