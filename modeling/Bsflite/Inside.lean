import Bsflite.Tlv

/-!
# Bsflite.Inside

Computations that stay inside their buffers.  `Inside x` says that `x` does
not read outside; the lemmas push it through a parser, one read at a time,
and leave what the read asks of the buffer:

* `inside_peek_bind`, `inside_twoTo16_bind`, … — a read at a fixed offset;
* `inside_tlvSplit_bind` — a TLV list up to the end of the buffer;
* `inside_foldlM` — a loop over a list.
-/

namespace Bsflite

/-- The computation does not read outside its buffers. -/
def Inside {α : Type} (x : Except Fault α) : Prop := x ≠ .error .oob

section
variable {α β : Type}

@[simp] theorem inside_ok (a : α) : Inside (.ok a : Except Fault α) := by
  intro h
  contradiction

@[simp] theorem inside_pure (a : α) : Inside (pure a : Except Fault α) := inside_ok a

@[simp] theorem inside_null : Inside (.error .null : Except Fault α) := by
  simp [Inside]

@[simp] theorem not_inside_oob : ¬ Inside (.error .oob : Except Fault α) := fun h => h rfl

/-- A sequence stays inside when its first part does and the second part
does on what the first part returns. -/
theorem inside_bind (x : Except Fault α) (f : α → Except Fault β) :
    Inside (x >>= f) ↔ Inside x ∧ ∀ a, x = .ok a → Inside (f a) := by
  cases x with
  | ok a => simp
  | error e =>
      cases e <;> simp [Inside]

/-- What follows a read need not be looked at when it never reads. -/
theorem inside_bind_of_forall (x : Except Fault α) {f : α → Except Fault β}
    (h : ∀ a, Inside (f a)) : Inside (x >>= f) ↔ Inside x := by
  rw [inside_bind]
  exact and_iff_left fun a _ => h a

theorem inside_ite {c : Prop} [Decidable c] (x y : Except Fault α) :
    Inside (if c then x else y) ↔ if c then Inside x else Inside y := by
  split <;> rfl

end

/-! ## reads at an offset -/

/-- The byte at an offset. -/
def byteAt (data : List UInt8) (i : Nat) : UInt8 := data.getD i 0

/-- The big-endian word at an offset. -/
def wordAt (data : List UInt8) (i : Nat) : UInt16 := ofBe16 (byteAt data i) (byteAt data (i + 1))

@[simp] theorem byteAt_drop (data : List UInt8) (k i : Nat) :
    byteAt (data.drop k) i = byteAt data (k + i) := by
  simp [byteAt, List.getD_eq_getElem?_getD]

@[simp] theorem wordAt_drop (data : List UInt8) (k i : Nat) :
    wordAt (data.drop k) i = wordAt data (k + i) := by
  simp [wordAt, Nat.add_assoc]

theorem peek_eq (data : List UInt8) (i : Nat) :
    peek data i = if i < data.length then .ok (byteAt data i) else .error .oob := by
  split
  · next h => simp [peek, byteAt, h]
  · next h => exact peek_eq_error (by omega)

section
variable [Host]

theorem twoTo16_eq (data : List UInt8) :
    twoTo16 data = if 2 ≤ data.length then .ok (wordAt data 0) else .error .oob := by
  match data with
  | [] => rfl
  | [_] => rfl
  | a :: b :: bs => simp [wordAt, byteAt]

theorem twoTo16_drop_eq (data : List UInt8) (i : Nat) :
    twoTo16 (data.drop i) = if i + 2 ≤ data.length then .ok (wordAt data i) else .error .oob := by
  rw [twoTo16_eq, wordAt_drop, List.length_drop, Nat.add_zero]
  congr 1
  exact propext ⟨fun h => by omega, fun h => by omega⟩

end

section
variable {β : Type} (data : List UInt8) (i : Nat)

theorem inside_peek_bind (f : UInt8 → Except Fault β) :
    Inside (peek data i >>= f) ↔ i < data.length ∧ Inside (f (byteAt data i)) := by
  rw [peek_eq]
  split <;> simp [*]

/-- Copying a run of bytes. -/
theorem inside_peekN_bind (n : Nat) (f : List UInt8 → Except Fault β) :
    Inside (peekN data i n >>= f) ↔
      (n = 0 ∨ i + n ≤ data.length) ∧ Inside (f ((data.drop i).take n)) := by
  rw [peekN]
  split <;> simp [*]

theorem inside_peekN (n : Nat) : Inside (peekN data i n) ↔ n = 0 ∨ i + n ≤ data.length := by
  rw [peekN]
  split <;> simp [*]

/-- A length that was negative before its conversion is too long for any
buffer. -/
theorem not_inside_peekN {n : Nat} (h : data.length < n) : ¬ Inside (peekN data i n) := by
  rw [inside_peekN]
  omega

variable [Host]

theorem inside_twoTo16_bind (f : UInt16 → Except Fault β) :
    Inside (twoTo16 data >>= f) ↔ 2 ≤ data.length ∧ Inside (f (wordAt data 0)) := by
  rw [twoTo16_eq]
  split <;> simp [*]

theorem inside_twoTo16_drop_bind (f : UInt16 → Except Fault β) :
    Inside (twoTo16 (data.drop i) >>= f) ↔ i + 2 ≤ data.length ∧ Inside (f (wordAt data i)) := by
  rw [twoTo16_drop_eq]
  split <;> simp [*]

/-! ## reads through a packet -/

omit [Host] in
theorem inside_pktGet8_bind (len : Nat) (f : UInt8 × Pkt → Except Fault β) :
    Inside (pktGet8 ⟨data, len, i⟩ >>= f) ↔
      i < data.length ∧ Inside (f (byteAt data i, ⟨data, len, i + 1⟩)) := by
  rw [pktGet8, bind_assoc, inside_peek_bind]
  rfl

theorem inside_pktGet16_bind (len : Nat) (f : UInt16 × Pkt → Except Fault β) :
    Inside (pktGet16 ⟨data, len, i⟩ >>= f) ↔
      i + 2 ≤ data.length ∧ Inside (f (wordAt data i, ⟨data, len, i + 2⟩)) := by
  rw [pktGet16, bind_assoc, inside_twoTo16_drop_bind]
  rfl

omit [Host] in
theorem inside_pktGetstr_bind (len : Nat) (n : UInt16) (f : List UInt8 × Pkt → Except Fault β) :
    Inside (pktGetstr ⟨data, len, i⟩ n.toNat >>= f) ↔
      (n.toNat = 0 ∨ i + n.toNat ≤ data.length) ∧
        Inside (f ((data.drop i).take n.toNat, ⟨data, len, i + n.toNat⟩)) := by
  have hn : (uint16 n.toNat).toNat = n.toNat := toNat_uint16_of_lt n.toNat_lt
  rw [pktGetstr, bind_assoc, inside_peekN_bind, hn]
  rfl

end

/-! ## TLV lists -/

section
variable [Host] {β : Type} {data : List UInt8}

/-- A TLV list up to the end of the buffer. -/
theorem inside_tlvSplit_bind (hlen : data.length ≤ 65535) (numtlv : Nat)
    (f : List Tlv → Except Fault β) :
    Inside (tlvSplit data data.length numtlv >>= f) ↔
      ∃ ts, tlvBytes ts = data ∧ Inside (f ts) := by
  rcases tlvSplit_cases hlen data.length numtlv with hout | ⟨ts, hok, -, hbytes⟩
  · rw [hout, error_bind]
    refine ⟨fun h => absurd h not_inside_oob, ?_⟩
    rintro ⟨ts, rfl, -⟩
    rw [tlvSplit_tlvBytes ts numtlv hlen] at hout
    contradiction
  · rw [hok, ok_bind]
    refine ⟨fun h => ⟨ts, hbytes rfl, h⟩, ?_⟩
    rintro ⟨us, rfl, hus⟩
    rw [tlvSplit_tlvBytes us numtlv hlen] at hok
    rwa [← Except.ok.inj hok]

/-- A list that is longer than the buffer. -/
theorem not_inside_tlvSplit_bind (hlen : data.length ≤ 65535) {len : Nat}
    (hlong : data.length < len) (numtlv : Nat) (f : List Tlv → Except Fault β) :
    ¬ Inside (tlvSplit data len numtlv >>= f) := by
  rcases tlvSplit_cases hlen len numtlv with hout | ⟨ts, -, hle, -⟩
  · rw [hout, error_bind]
    exact not_inside_oob
  · omega

/-- A TLV list from an offset to the end of the buffer: a buffer that ends
before the offset gives a negative length. -/
theorem inside_tlvSplit_drop_bind (hlen : data.length ≤ 65535) (k numtlv : Nat)
    (hk : k ≤ 65536) (f : List Tlv → Except Fault β) :
    Inside (tlvSplit (data.drop k) (sizeT (data.length - k)) numtlv >>= f) ↔
      k ≤ data.length ∧ ∃ ts, tlvBytes ts = data.drop k ∧ Inside (f ts) := by
  have hdrop : (data.drop k).length ≤ 65535 := by
    rw [List.length_drop]
    omega
  by_cases hle : k ≤ data.length
  · have hsize : sizeT ((data.length : Int) - k) = (data.drop k).length := by
      rw [sizeT_of_nonneg (by omega), List.length_drop]
      omega
    rw [hsize, inside_tlvSplit_bind hdrop, and_iff_right hle]
  · have hlong : (data.drop k).length < sizeT ((data.length : Int) - k) := by
      have := sizeT_of_neg (i := (data.length : Int) - k) (by omega) (by omega)
      omega
    refine iff_of_false (not_inside_tlvSplit_bind hdrop hlong numtlv f) ?_
    rintro ⟨hle', -⟩
    exact hle hle'

end

/-! ## loops -/

/-- A loop stays inside when every element of its list meets what the body
asks of it. -/
theorem inside_foldlM {α σ : Type} {step : σ → α → Except Fault σ} {P : α → Prop}
    (hstep : ∀ s a, P a → ∃ s', step s a = .ok s')
    (hout : ∀ s a, ¬ P a → step s a = .error .oob) (s : σ) (as : List α) :
    ((∀ a ∈ as, P a) → ∃ s', as.foldlM step s = .ok s') ∧
      ((¬ ∀ a ∈ as, P a) → as.foldlM step s = .error .oob) := by
  induction as generalizing s with
  | nil => exact ⟨fun _ => ⟨s, rfl⟩, fun h => absurd (by simp) h⟩
  | cons a as ih =>
      rw [List.foldlM_cons]
      by_cases ha : P a
      · obtain ⟨s', hs'⟩ := hstep s a ha
        rw [hs', ok_bind]
        simpa [ha] using ih s'
      · rw [hout s a ha, error_bind]
        simp [ha]

/-- The same, in front of what follows the loop. -/
theorem inside_foldlM_bind {α σ β : Type} {step : σ → α → Except Fault σ} {P : α → Prop}
    (hstep : ∀ s a, P a → ∃ s', step s a = .ok s')
    (hout : ∀ s a, ¬ P a → step s a = .error .oob) (s : σ) (as : List α)
    {f : σ → Except Fault β} {Q : Prop} (hf : ∀ s, Inside (f s) ↔ Q) :
    Inside (as.foldlM step s >>= f) ↔ (∀ a ∈ as, P a) ∧ Q := by
  obtain ⟨hin, hex⟩ := inside_foldlM hstep hout s as
  by_cases h : ∀ a ∈ as, P a
  · obtain ⟨s', hs'⟩ := hin h
    rw [hs', ok_bind, hf, and_iff_right h]
  · rw [hex h, error_bind]
    exact iff_of_false not_inside_oob fun hq => h hq.1

end Bsflite
