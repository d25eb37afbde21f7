import Bsflite.Cursor
import Bsflite.Tlv

/-!
# Bsflite.TlvCursor

The loop of `tlv_split` with whatever lies behind the buffer: nothing that it
reads is a fault here, and what counts is whether its 16-bit cursor gets to
the end.

* `tlvLoop_reads` — where `tlv_split` stays inside the buffer, both loops agree.
* `tlvMemLoop_iff` — the loop is the walk of a cursor modulo 2^16.
* `tlv_split_ends` — when it is over after one iteration for every four bytes,
  and when it never is.
-/

namespace Bsflite

/-- `n` bytes from index `i` on, inside the buffer or not. -/
def fetch (mem : Nat → UInt8) (i n : Nat) : List UInt8 := (List.range n).map fun k => mem (i + k)

/-- The length field of the TLV at index `x`. -/
def lenField (mem : Nat → UInt8) (x : Nat) : UInt16 := ofBe16 (mem (x + 2)) (mem (x + 3))

/-- From a TLV to the one behind it. -/
def tlvStep (mem : Nat → UInt8) (x : Nat) : Nat := 4 + (lenField mem x).toNat

/-- Offset by offset, the bytes are those of the memory. -/
def LiesIn (data : List UInt8) (mem : Nat → UInt8) : Prop :=
  ∀ (i : Nat) (h : i < data.length), data[i] = mem i

@[simp] theorem length_fetch (mem : Nat → UInt8) (i n : Nat) : (fetch mem i n).length = n := by
  simp [fetch]

theorem fetch_two (mem : Nat → UInt8) (i : Nat) : fetch mem i 2 = [mem i, mem (i + 1)] := rfl

/-- A slice of the buffer. -/
theorem LiesIn.fetch_eq {data : List UInt8} {mem : Nat → UInt8} (h : LiesIn data mem) {i n : Nat}
    (hin : i + n ≤ data.length) : fetch mem i n = (data.drop i).take n := by
  apply List.ext_getElem
  · rw [length_fetch, List.length_take, List.length_drop]
    omega
  · intro k hk _
    rw [length_fetch] at hk
    simp [fetch, h (i + k) (by omega)]

section
variable [Host]

/-- The loop of `tlv_split`; the fuel bounds the iterations, and the test
that ends the loop takes one as well. -/
def tlvMemLoop (mem : Nat → UInt8) (len : Nat) : Nat → UInt16 → Except Fault (List Tlv)
  | 0, _ => .error .hang
  | fuel + 1, x =>
    if x.toNat < len then do
      let type ← twoTo16 (fetch mem x.toNat 2)
      let tlen ← twoTo16 (fetch mem (x.toNat + 2) 2)
      let x := x + 4
      let value : { v : List UInt8 // v.length < 65536 } :=
        ⟨fetch mem x.toNat tlen.toNat, by
          rw [length_fetch]
          exact tlen.toNat_lt⟩
      let x := if tlen ≠ 0 then x + tlen else x
      let next ← tlvMemLoop mem len fuel x
      return ⟨type, value⟩ :: next
    else return []

/-- `tlv_split` is over after at most `n` iterations of its loop. -/
def TlvSplitEnds (mem : Nat → UInt8) (len n : Nat) : Prop :=
  ∃ ts, tlvMemLoop mem len (n + 1) 0 = .ok ts

/-! ## inside the buffer -/

/-- A word in the buffer. -/
theorem LiesIn.twoTo16_eq {data : List UInt8} {mem : Nat → UInt8} (h : LiesIn data mem) {i : Nat}
    {v : UInt16} (hv : twoTo16 (data.drop i) = .ok v) : twoTo16 (fetch mem i 2) = .ok v := by
  have hin : i + 2 ≤ data.length := by
    by_contra hout
    rw [twoTo16_drop_error (by omega)] at hv
    cases hv
  obtain ⟨v', hv', hdrop⟩ := exists_twoTo16_drop data i hin
  obtain rfl : v' = v := Except.ok.inj (hv'.symm.trans hv)
  rw [h.fetch_eq hin, hdrop, take_append_of_length (length_be16 v')]
  simpa using twoTo16_be16_append v' []

/-- Where the buffer is not left, the loop does what `tlvLoop` does. -/
theorem tlvLoop_reads {data : List UInt8} {mem : Nat → UInt8} (h : LiesIn data mem) (len : Nat) :
    ∀ (fuel : Nat) {x : UInt16} {ts : List Tlv}, tlvLoop data len fuel x = .ok ts →
      tlvMemLoop mem len fuel x = .ok ts := by
  intro fuel
  induction fuel with
  | zero =>
      intro x ts hts
      cases hts
  | succ fuel ih =>
      intro x ts hts
      rw [tlvLoop] at hts
      rw [tlvMemLoop]
      by_cases hlt : x.toNat < len
      · rw [if_pos hlt] at hts ⊢
        obtain ⟨type, htype, hts⟩ := bind_eq_ok hts
        obtain ⟨tlen, htlen, hts⟩ := bind_eq_ok hts
        obtain ⟨value, hvalue, hts⟩ := bind_eq_ok hts
        obtain ⟨next, hnext, hts⟩ := bind_eq_ok hts
        rw [h.twoTo16_eq htype, ok_bind, h.twoTo16_eq htlen, ok_bind]
        simp only [ih hnext, ok_bind]
        rw [← hts]
        have hsame : fetch mem (x + 4).toNat tlen.toNat = value.val := by
          rw [copyValue] at hvalue
          split at hvalue
          · next hin =>
            rw [← Except.ok.inj hvalue]
            rcases hin with rfl | hin
            · rfl
            · exact h.fetch_eq hin
          · cases hvalue
        simp only [hsame]
      · rw [if_neg hlt] at hts ⊢
        exact hts

/-! ## the walk of the cursor -/

/-- One iteration. -/
theorem tlvMemLoop_step (mem : Nat → UInt8) {len : Nat} {x : UInt16} (hlt : x.toNat < len)
    (fuel : Nat) :
    ∃ (t : Tlv) (x' : UInt16), x'.toNat = (x.toNat + tlvStep mem x.toNat) % 65536 ∧
      tlvMemLoop mem len (fuel + 1) x = (tlvMemLoop mem len fuel x').map (t :: ·) := by
  have htype : twoTo16 (fetch mem x.toNat 2) =
      .ok (ofBe16 (mem x.toNat) (mem (x.toNat + 1))) := by
    rw [fetch_two, twoTo16_cons]
  have htlen : twoTo16 (fetch mem (x.toNat + 2) 2) = .ok (lenField mem x.toNat) := by
    rw [fetch_two, twoTo16_cons]
    rfl
  refine ⟨⟨ofBe16 (mem x.toNat) (mem (x.toNat + 1)),
      ⟨fetch mem (x + 4).toNat (lenField mem x.toNat).toNat, ?_⟩⟩,
    if lenField mem x.toNat ≠ 0 then x + 4 + lenField mem x.toNat else x + 4, ?_, ?_⟩
  · rw [length_fetch]
    exact (lenField mem x.toNat).toNat_lt
  · have hfour : (4 : UInt16).toNat = 4 := rfl
    rw [tlvStep]
    by_cases hzero : lenField mem x.toNat = 0
    · have hnat : (lenField mem x.toNat).toNat = 0 := by rw [hzero]; rfl
      rw [if_neg (by simpa using hzero), UInt16.toNat_add, hfour, hnat]
    · rw [if_pos hzero, UInt16.toNat_add, UInt16.toNat_add, hfour]
      omega
  · rw [tlvMemLoop, if_pos hlt, htype, ok_bind, htlen, ok_bind]
    dsimp only
    cases tlvMemLoop mem len fuel
      (if lenField mem x.toNat ≠ 0 then x + 4 + lenField mem x.toNat else x + 4) with
    | error e => rfl
    | ok next => rfl

/-- The loop ends when its cursor leaves the buffer, and has as many
iterations as the cursor makes steps. -/
theorem tlvMemLoop_iff (mem : Nat → UInt8) (len fuel : Nat) (x : UInt16) :
    (∃ ts, tlvMemLoop mem len fuel x = .ok ts) ↔
      ∃ n < fuel, Cursor.Leaves (tlvStep mem) 65536 len x.toNat n := by
  induction fuel generalizing x with
  | zero => simp [tlvMemLoop]
  | succ fuel ih =>
      by_cases hlt : x.toNat < len
      · obtain ⟨t, x', hx', hrun⟩ := tlvMemLoop_step mem hlt fuel
        have hmap : (∃ ts, tlvMemLoop mem len (fuel + 1) x = .ok ts) ↔
            ∃ ts, tlvMemLoop mem len fuel x' = .ok ts := by
          rw [hrun]
          cases tlvMemLoop mem len fuel x' <;> simp [Except.map]
        rw [hmap, ih, hx']
        constructor
        · rintro ⟨n, hn, hleaves⟩
          exact ⟨n + 1, by omega, .move hlt hleaves⟩
        · rintro ⟨n, hn, hleaves⟩
          cases hleaves with
          | out hle => omega
          | move _ rest => exact ⟨_, by omega, rest⟩
      · rw [tlvMemLoop, if_neg hlt]
        exact ⟨fun _ => ⟨0, by omega, .out (by omega)⟩, fun _ => ⟨[], rfl⟩⟩

/-! ## how long it takes -/

omit [Host] in
/-- The TLVs that begin in the buffer, one behind the other, lead to its end:
where they lead to, the 16-bit cursor has not wrapped, or is not back in the
buffer. -/
def LeadsOut (mem : Nat → UInt8) (len : Nat) : Prop :=
  ∃ n, (∀ k < n, Cursor.offset (tlvStep mem) 0 k < len) ∧
    len ≤ Cursor.offset (tlvStep mem) 0 n % 65536

omit [Host] in
/-- They lead the cursor back to one of them. -/
def LeadsBack (mem : Nat → UInt8) (len : Nat) : Prop :=
  ∃ n, (∀ k < n, Cursor.offset (tlvStep mem) 0 k < len) ∧
    ∃ k < n, Cursor.offset (tlvStep mem) 0 n % 65536 = Cursor.offset (tlvStep mem) 0 k

omit [Host] in
/-- Every TLV takes four bytes at least. -/
theorem tlvCount_le {mem : Nat → UInt8} {len n : Nat}
    (hbelow : ∀ k < n, Cursor.offset (tlvStep mem) 0 k < len) : n ≤ len / 4 + 1 := by
  cases n with
  | zero => exact Nat.zero_le _
  | succ n =>
      have hlast := hbelow n (Nat.lt_succ_self n)
      have hsteps (x : Nat) : 4 ≤ tlvStep mem x := Nat.le_add_right 4 _
      have hfour := Cursor.le_offset hsteps 0 n
      omega

/-- **`tlv_split` comes to an end** after at most one iteration for every four
bytes and one more, if its TLVs lead out of the buffer; and never, if they lead
back to one of them. -/
theorem tlv_split_ends (mem : Nat → UInt8) {len : Nat} (hlen : len ≤ 65535) :
    (LeadsOut mem len → TlvSplitEnds mem len (len / 4 + 1)) ∧
      (LeadsBack mem len → ∀ n, ¬ TlvSplitEnds mem len n) := by
  have hmod : len ≤ 65536 := by omega
  have hstart : (0 : UInt16).toNat < 65536 := by decide
  constructor
  · rintro ⟨n, hbelow, hend⟩
    have hcount := tlvCount_le hbelow
    exact (tlvMemLoop_iff mem len _ 0).mpr ⟨n, by omega,
      (Cursor.leaves_iff_offset hmod hstart hbelow n).mpr ⟨0, rfl, .out hend⟩⟩
  · rintro ⟨n, hbelow, k, hk, hback⟩ m hends
    obtain ⟨j, -, hleaves⟩ := (tlvMemLoop_iff mem len _ 0).mp hends
    exact Cursor.not_leaves_of_back hmod hstart hk hbelow hback j hleaves

end

/-- A buffer, with zeros behind it. -/
def memOf (data : List UInt8) (i : Nat) : UInt8 := data.getD i 0

/-- An empty value in front of a value of two bytes; a length of 65535 in a
buffer of one byte, which takes the cursor to 3; and a length of 65532. -/
theorem tlv_split_ends_ten_bytes :
    @TlvSplitEnds littleEndianHost (memOf [0, 4, 0, 0, 0, 1, 0, 2, 7, 48]) 10 3 ∧
      @TlvSplitEnds littleEndianHost (memOf [0, 4, 0xFF, 0xFF]) 1 1 ∧
      ∀ n, ¬ @TlvSplitEnds littleEndianHost (memOf [0, 0, 0xFF, 0xFC]) 4 n :=
  ⟨(@tlv_split_ends littleEndianHost (memOf [0, 4, 0, 0, 0, 1, 0, 2, 7, 48]) 10
      (by decide)).1 ⟨2, by decide, by decide⟩,
    (@tlv_split_ends littleEndianHost (memOf [0, 4, 0xFF, 0xFF]) 1 (by decide)).1
      ⟨1, by decide, by decide⟩,
    (@tlv_split_ends littleEndianHost (memOf [0, 0, 0xFF, 0xFC]) 4 (by decide)).2
      ⟨1, by decide, 0, by decide, by decide⟩⟩

/-- A length of 65534 leads back to 2, and what is taken for a TLV there happens
to lead out. -/
example : @TlvSplitEnds littleEndianHost (memOf [0, 0, 0xFF, 0xFE, 0, 4]) 10 3 :=
  (@tlvMemLoop_iff littleEndianHost _ 10 4 0).mpr
    ⟨2, by decide, .move (by decide) (.move (by decide) (.out (by decide)))⟩

/-- A length of 65532 takes the cursor back to where it was, for ever. -/
theorem tlv_split_stalls :
    (∀ n, ¬ @TlvSplitEnds littleEndianHost (memOf [0, 0, 0xFF, 0xFC]) 4 n) ∧
      ¬ ∀ (mem : Nat → UInt8) (len : Nat), len ≤ 65535 →
        @TlvSplitEnds littleEndianHost mem len (len / 4 + 1) := by
  have hstall (n : Nat) : ¬ @TlvSplitEnds littleEndianHost (memOf [0, 0, 0xFF, 0xFC]) 4 n := by
    intro hends
    obtain ⟨k, -, hleaves⟩ := (@tlvMemLoop_iff littleEndianHost _ _ _ _).mp hends
    exact Cursor.not_leaves_of_back (x := 0) (k := 0) (n := 1) (by decide) (by decide) (by decide)
      (by decide) (by decide) k hleaves
  exact ⟨hstall, fun hall => hstall _ (hall _ 4 (by decide))⟩

end Bsflite
