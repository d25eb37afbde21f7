import Mathlib.Data.List.TakeWhile
import Mathlib.Tactic

/-!
# Bsflite.Bytes

Byte-list plumbing for the protocol layer: big-endian words, reads that
know the end of the buffer, overwriting a slice of a buffer, and `take` /
`drop` lemmas over appended buffers.

Nothing here names the client or the protocol; every lemma is about lists
of bytes.
-/

namespace Bsflite

/-! ## take/drop over appended buffers -/

/-- Taking the length of a prefix from an append gives the prefix. -/
theorem take_append_of_length {α : Type*} {xs ys : List α} {k : Nat} (h : xs.length = k) :
    (xs ++ ys).take k = xs := by
  subst h; simp

/-- Dropping the length of a prefix from an append gives the suffix. -/
theorem drop_append_of_length {α : Type*} {xs ys : List α} {k : Nat} (h : xs.length = k) :
    (xs ++ ys).drop k = ys := by
  subst h; simp

/-! ## up to a byte -/

theorem forall_ne_of_notMem {c : UInt8} {s : List UInt8} (h : c ∉ s) :
    ∀ b ∈ s, decide (b ≠ c) = true := by
  intro b hb
  rw [decide_eq_true_eq]
  rintro rfl
  exact h hb

/-- A text without the byte is taken whole. -/
theorem takeWhile_ne_of_notMem {c : UInt8} {s : List UInt8} (h : c ∉ s) :
    s.takeWhile (· ≠ c) = s := List.takeWhile_eq_self_iff.mpr (forall_ne_of_notMem h)

/-- The text in front of the first such byte. -/
theorem takeWhile_ne_append {c : UInt8} {s : List UInt8} (h : c ∉ s) (rest : List UInt8) :
    (s ++ c :: rest).takeWhile (· ≠ c) = s := by
  rw [List.takeWhile_append_of_pos (forall_ne_of_notMem h)]
  simp

/-- The text from the first such byte on. -/
theorem dropWhile_ne_append {c : UInt8} {s : List UInt8} (h : c ∉ s) (rest : List UInt8) :
    (s ++ c :: rest).dropWhile (· ≠ c) = c :: rest := by
  rw [List.dropWhile_append_of_pos (forall_ne_of_notMem h)]
  simp

/-! ## big-endian words -/

/-- The two bytes of a 16-bit word, most significant first. -/
def be16 (v : UInt16) : List UInt8 := [UInt8.ofNat (v.toNat / 256), v.toUInt8]

/-- The four bytes of a 32-bit word, most significant first. -/
def be32 (v : UInt32) : List UInt8 :=
  [UInt8.ofNat (v.toNat / 16777216), UInt8.ofNat (v.toNat / 65536), UInt8.ofNat (v.toNat / 256),
    v.toUInt8]

/-- The 16-bit word with the given high and low byte. -/
def ofBe16 (hi lo : UInt8) : UInt16 := UInt16.ofNat (hi.toNat * 256 + lo.toNat)

/-- The 32-bit word with the given bytes, most significant first. -/
def ofBe32 (a b c d : UInt8) : UInt32 :=
  UInt32.ofNat (a.toNat * 16777216 + b.toNat * 65536 + c.toNat * 256 + d.toNat)

@[simp] theorem length_be16 (v : UInt16) : (be16 v).length = 2 := rfl

@[simp] theorem length_be32 (v : UInt32) : (be32 v).length = 4 := rfl

theorem toNat_ofBe16 (hi lo : UInt8) : (ofBe16 hi lo).toNat = hi.toNat * 256 + lo.toNat := by
  have h1 := hi.toNat_lt
  have h2 := lo.toNat_lt
  rw [ofBe16, UInt16.toNat_ofNat']
  omega

theorem toNat_ofBe32 (a b c d : UInt8) :
    (ofBe32 a b c d).toNat =
      a.toNat * 16777216 + b.toNat * 65536 + c.toNat * 256 + d.toNat := by
  have h1 := a.toNat_lt
  have h2 := b.toNat_lt
  have h3 := c.toNat_lt
  have h4 := d.toNat_lt
  rw [ofBe32, UInt32.toNat_ofNat']
  omega

/-- Reading back the two bytes of a word gives the word. -/
@[simp] theorem ofBe16_be16 (v : UInt16) :
    ofBe16 (UInt8.ofNat (v.toNat / 256)) v.toUInt8 = v := by
  have h := v.toNat_lt
  apply UInt16.toNat_inj.mp
  rw [toNat_ofBe16, UInt8.toNat_ofNat', UInt16.toNat_toUInt8]
  omega

/-- Reading back the four bytes of a word gives the word. -/
@[simp] theorem ofBe32_be32 (v : UInt32) :
    ofBe32 (UInt8.ofNat (v.toNat / 16777216)) (UInt8.ofNat (v.toNat / 65536))
      (UInt8.ofNat (v.toNat / 256)) v.toUInt8 = v := by
  have h := v.toNat_lt
  apply UInt32.toNat_inj.mp
  rw [toNat_ofBe32, UInt8.toNat_ofNat', UInt8.toNat_ofNat', UInt8.toNat_ofNat',
    UInt32.toNat_toUInt8]
  omega

/-- The bytes of a word, and what reading them back gives. -/
theorem exists_be16 (v : UInt16) : ∃ hi lo, be16 v = [hi, lo] ∧ ofBe16 hi lo = v :=
  ⟨_, _, rfl, ofBe16_be16 v⟩

/-- The bytes of a word assembled from two bytes are those bytes. -/
@[simp] theorem be16_ofBe16 (hi lo : UInt8) : be16 (ofBe16 hi lo) = [hi, lo] := by
  have h1 := hi.toNat_lt
  have h2 := lo.toNat_lt
  rw [be16, toNat_ofBe16]
  congr 1
  · apply UInt8.toNat_inj.mp
    rw [UInt8.toNat_ofNat']
    omega
  · congr 1
    apply UInt8.toNat_inj.mp
    rw [UInt16.toNat_toUInt8, toNat_ofBe16]
    omega

/-- The bytes of a word assembled from four bytes are those bytes. -/
@[simp] theorem be32_ofBe32 (a b c d : UInt8) : be32 (ofBe32 a b c d) = [a, b, c, d] := by
  have h1 := a.toNat_lt
  have h2 := b.toNat_lt
  have h3 := c.toNat_lt
  have h4 := d.toNat_lt
  rw [be32, toNat_ofBe32]
  congr 1
  · apply UInt8.toNat_inj.mp
    rw [UInt8.toNat_ofNat']
    omega
  congr 1
  · apply UInt8.toNat_inj.mp
    rw [UInt8.toNat_ofNat']
    omega
  congr 1
  · apply UInt8.toNat_inj.mp
    rw [UInt8.toNat_ofNat']
    omega
  congr 1
  apply UInt8.toNat_inj.mp
  rw [UInt32.toNat_toUInt8, toNat_ofBe32]
  omega

/-! ## overwriting a slice -/

/-- Overwrite the bytes of `buf` from `pos` on by `bs`. -/
def poke (buf : List UInt8) (pos : Nat) (bs : List UInt8) : List UInt8 :=
  buf.take pos ++ bs ++ buf.drop (pos + bs.length)

/-- Overwriting inside a buffer keeps its length. -/
theorem length_poke {buf bs : List UInt8} {pos : Nat} (h : pos + bs.length ≤ buf.length) :
    (poke buf pos bs).length = buf.length := by
  simp only [poke, List.length_append, List.length_take, List.length_drop]
  omega

/-- Overwriting extends the front of the buffer that is already right. -/
theorem take_poke {buf bs : List UInt8} {pos : Nat} (h : pos ≤ buf.length) :
    (poke buf pos bs).take (pos + bs.length) = buf.take pos ++ bs := by
  rw [poke, take_append_of_length]
  rw [List.length_append, List.length_take]
  omega

/-- Overwriting changes nothing behind the slice. -/
theorem drop_poke {buf bs : List UInt8} {pos n : Nat} (h : pos + bs.length ≤ n)
    (hn : n ≤ buf.length) : (poke buf pos bs).drop n = buf.drop n := by
  have hfront : (buf.take pos ++ bs).length = pos + bs.length := by
    rw [List.length_append, List.length_take]
    omega
  rw [poke, List.drop_append, hfront, List.drop_eq_nil_of_le (by omega), List.nil_append,
    List.drop_drop]
  congr 1
  omega

/-- Overwriting nothing changes nothing. -/
@[simp] theorem poke_nil (buf : List UInt8) (pos : Nat) : poke buf pos [] = buf := by
  simp [poke]

/-- Overwriting just behind a prefix extends the prefix. -/
theorem poke_append {pre rest bs : List UInt8} {pos : Nat} (h : pre.length = pos) :
    poke (pre ++ rest) pos bs = (pre ++ bs) ++ rest.drop bs.length := by
  subst h
  simp [poke, List.drop_append]

end Bsflite
