import Bsflite.Absorb
import Bsflite.CString
import Bsflite.Login

/-!
# Bsflite.Md5

The digest of `imcomm/md5.c`: `md5_process` with its unrolled rounds,
`md5_append`, which keeps the bytes of an unfinished block, and `md5_finish`.

`md5Digest` is the digest of a whole message as a document would define it:
pad, cut into blocks, run 64 numbered steps over each.  The rounds compute
those steps (`md5Process_eq`), and appends of any sizes leave what a single
message would (`md5_pieces`).
-/

namespace Bsflite

/-! ## the state -/

/-- The four words of the digest buffer. -/
structure Abcd where
  a : UInt32
  b : UInt32
  c : UInt32
  d : UInt32
deriving DecidableEq, Repr

/-- The digest buffer of the first block. -/
def Abcd.initial : Abcd := ⟨0x67452301, 0xefcdab89, 0x98badcfe, 0x10325476⟩

/-- The words of two buffers, added. -/
def Abcd.plus (v w : Abcd) : Abcd := ⟨v.a + w.a, v.b + w.b, v.c + w.c, v.d + w.d⟩

/-- The bytes of a word, least significant first. -/
def le32 (v : UInt32) : List UInt8 := (be32 v).reverse

/-- The bytes of the digest buffer, each word least significant byte first. -/
def Abcd.bytes (v : Abcd) : List UInt8 := le32 v.a ++ le32 v.b ++ le32 v.c ++ le32 v.d

/-- `md5_state_t`: the length in bits, low word first, the digest buffer and
the block that is collected. -/
structure Md5State where
  count0 : UInt32
  count1 : UInt32
  abcd : Abcd
  buf : List UInt8
deriving DecidableEq, Repr

/-! ## `md5_process` -/

/-- `T_MASK` -/
def tMask : UInt32 := ~~~0

/-- `T1` to `T64` -/
def md5Ts : List UInt32 :=
  [tMask ^^^ 0x28955b87, tMask ^^^ 0x173848a9, 0x242070db, tMask ^^^ 0x3e423111,
   tMask ^^^ 0x0a83f050, 0x4787c62a, tMask ^^^ 0x57cfb9ec, tMask ^^^ 0x02b96afe,
   0x698098d8, tMask ^^^ 0x74bb0850, tMask ^^^ 0x0000a44e, tMask ^^^ 0x76a32841,
   0x6b901122, tMask ^^^ 0x02678e6c, tMask ^^^ 0x5986bc71, 0x49b40821,
   tMask ^^^ 0x09e1da9d, tMask ^^^ 0x3fbf4cbf, 0x265e5a51, tMask ^^^ 0x16493855,
   tMask ^^^ 0x29d0efa2, 0x02441453, tMask ^^^ 0x275e197e, tMask ^^^ 0x182c0437,
   0x21e1cde6, tMask ^^^ 0x3cc8f829, tMask ^^^ 0x0b2af278, 0x455a14ed,
   tMask ^^^ 0x561c16fa, tMask ^^^ 0x03105c07, 0x676f02d9, tMask ^^^ 0x72d5b375,
   tMask ^^^ 0x0005c6bd, tMask ^^^ 0x788e097e, 0x6d9d6122, tMask ^^^ 0x021ac7f3,
   tMask ^^^ 0x5b4115bb, 0x4bdecfa9, tMask ^^^ 0x0944b49f, tMask ^^^ 0x4140438f,
   0x289b7ec6, tMask ^^^ 0x155ed805, tMask ^^^ 0x2b10cf7a, 0x04881d05,
   tMask ^^^ 0x262b2fc6, tMask ^^^ 0x1924661a, 0x1fa27cf8, tMask ^^^ 0x3b53a99a,
   tMask ^^^ 0x0bd6ddbb, 0x432aff97, tMask ^^^ 0x546bdc58, tMask ^^^ 0x036c5fc6,
   0x655b59c3, tMask ^^^ 0x70f3336d, tMask ^^^ 0x00100b82, tMask ^^^ 0x7a7ba22e,
   0x6fa87e4f, tMask ^^^ 0x01d3191f, tMask ^^^ 0x5cfebceb, 0x4e0811a1,
   tMask ^^^ 0x08ac817d, tMask ^^^ 0x42c50dca, 0x2ad7d2bb, tMask ^^^ 0x14792c6e]

@[inherit_doc md5Ts] def md5T (i : Nat) : UInt32 := md5Ts.getD (i - 1) 0

/-- `ROTATE_LEFT` -/
def rotateLeft (x n : UInt32) : UInt32 := (x <<< n) ||| (x >>> (32 - n))

/-- The functions of the four rounds. -/
def md5F (x y z : UInt32) : UInt32 := (x &&& y) ||| (~~~x &&& z)
@[inherit_doc md5F] def md5G (x y z : UInt32) : UInt32 := (x &&& z) ||| (y &&& ~~~z)
@[inherit_doc md5F] def md5H (x y z : UInt32) : UInt32 := x ^^^ y ^^^ z
@[inherit_doc md5F] def md5I (x y z : UInt32) : UInt32 := y ^^^ (x ||| ~~~z)

/-- `SET`: the new value of its first word. -/
def md5Set (f : UInt32 → UInt32 → UInt32 → UInt32) (X : Fin 16 → UInt32) (a b c d : UInt32)
    (k : Fin 16) (s ti : UInt32) : UInt32 :=
  let t := a + f b c d + X k + ti
  rotateLeft t s + b

/-- Round 1. -/
def md5Round1 (X : Fin 16 → UInt32) (v : Abcd) : Abcd :=
  let a := md5Set md5F X v.a v.b v.c v.d 0 7 (md5T 1)
  let d := md5Set md5F X v.d a v.b v.c 1 12 (md5T 2)
  let c := md5Set md5F X v.c d a v.b 2 17 (md5T 3)
  let b := md5Set md5F X v.b c d a 3 22 (md5T 4)
  let a := md5Set md5F X a b c d 4 7 (md5T 5)
  let d := md5Set md5F X d a b c 5 12 (md5T 6)
  let c := md5Set md5F X c d a b 6 17 (md5T 7)
  let b := md5Set md5F X b c d a 7 22 (md5T 8)
  let a := md5Set md5F X a b c d 8 7 (md5T 9)
  let d := md5Set md5F X d a b c 9 12 (md5T 10)
  let c := md5Set md5F X c d a b 10 17 (md5T 11)
  let b := md5Set md5F X b c d a 11 22 (md5T 12)
  let a := md5Set md5F X a b c d 12 7 (md5T 13)
  let d := md5Set md5F X d a b c 13 12 (md5T 14)
  let c := md5Set md5F X c d a b 14 17 (md5T 15)
  let b := md5Set md5F X b c d a 15 22 (md5T 16)
  ⟨a, b, c, d⟩

/-- Round 2. -/
def md5Round2 (X : Fin 16 → UInt32) (v : Abcd) : Abcd :=
  let a := md5Set md5G X v.a v.b v.c v.d 1 5 (md5T 17)
  let d := md5Set md5G X v.d a v.b v.c 6 9 (md5T 18)
  let c := md5Set md5G X v.c d a v.b 11 14 (md5T 19)
  let b := md5Set md5G X v.b c d a 0 20 (md5T 20)
  let a := md5Set md5G X a b c d 5 5 (md5T 21)
  let d := md5Set md5G X d a b c 10 9 (md5T 22)
  let c := md5Set md5G X c d a b 15 14 (md5T 23)
  let b := md5Set md5G X b c d a 4 20 (md5T 24)
  let a := md5Set md5G X a b c d 9 5 (md5T 25)
  let d := md5Set md5G X d a b c 14 9 (md5T 26)
  let c := md5Set md5G X c d a b 3 14 (md5T 27)
  let b := md5Set md5G X b c d a 8 20 (md5T 28)
  let a := md5Set md5G X a b c d 13 5 (md5T 29)
  let d := md5Set md5G X d a b c 2 9 (md5T 30)
  let c := md5Set md5G X c d a b 7 14 (md5T 31)
  let b := md5Set md5G X b c d a 12 20 (md5T 32)
  ⟨a, b, c, d⟩

/-- Round 3. -/
def md5Round3 (X : Fin 16 → UInt32) (v : Abcd) : Abcd :=
  let a := md5Set md5H X v.a v.b v.c v.d 5 4 (md5T 33)
  let d := md5Set md5H X v.d a v.b v.c 8 11 (md5T 34)
  let c := md5Set md5H X v.c d a v.b 11 16 (md5T 35)
  let b := md5Set md5H X v.b c d a 14 23 (md5T 36)
  let a := md5Set md5H X a b c d 1 4 (md5T 37)
  let d := md5Set md5H X d a b c 4 11 (md5T 38)
  let c := md5Set md5H X c d a b 7 16 (md5T 39)
  let b := md5Set md5H X b c d a 10 23 (md5T 40)
  let a := md5Set md5H X a b c d 13 4 (md5T 41)
  let d := md5Set md5H X d a b c 0 11 (md5T 42)
  let c := md5Set md5H X c d a b 3 16 (md5T 43)
  let b := md5Set md5H X b c d a 6 23 (md5T 44)
  let a := md5Set md5H X a b c d 9 4 (md5T 45)
  let d := md5Set md5H X d a b c 12 11 (md5T 46)
  let c := md5Set md5H X c d a b 15 16 (md5T 47)
  let b := md5Set md5H X b c d a 2 23 (md5T 48)
  ⟨a, b, c, d⟩

/-- Round 4. -/
def md5Round4 (X : Fin 16 → UInt32) (v : Abcd) : Abcd :=
  let a := md5Set md5I X v.a v.b v.c v.d 0 6 (md5T 49)
  let d := md5Set md5I X v.d a v.b v.c 7 10 (md5T 50)
  let c := md5Set md5I X v.c d a v.b 14 15 (md5T 51)
  let b := md5Set md5I X v.b c d a 5 21 (md5T 52)
  let a := md5Set md5I X a b c d 12 6 (md5T 53)
  let d := md5Set md5I X d a b c 3 10 (md5T 54)
  let c := md5Set md5I X c d a b 10 15 (md5T 55)
  let b := md5Set md5I X b c d a 1 21 (md5T 56)
  let a := md5Set md5I X a b c d 8 6 (md5T 57)
  let d := md5Set md5I X d a b c 15 10 (md5T 58)
  let c := md5Set md5I X c d a b 6 15 (md5T 59)
  let b := md5Set md5I X b c d a 13 21 (md5T 60)
  let a := md5Set md5I X a b c d 4 6 (md5T 61)
  let d := md5Set md5I X d a b c 11 10 (md5T 62)
  let c := md5Set md5I X c d a b 2 15 (md5T 63)
  let b := md5Set md5I X b c d a 9 21 (md5T 64)
  ⟨a, b, c, d⟩

section
variable [Host]

/-- The words `X` of a block.  The first byte of a stored 1 tells how the
machine would read them; a big-endian one assembles them itself. -/
def md5X (block : List UInt8) (k : Fin 16) : UInt32 :=
  let xp := fun j => block.getD (4 * k.val + j) 0
  if (store32 1).headD 0 ≠ 0 then load32 (xp 0) (xp 1) (xp 2) (xp 3)
  else (xp 0).toUInt32 + ((xp 1).toUInt32 <<< 8) + ((xp 2).toUInt32 <<< 16) +
    ((xp 3).toUInt32 <<< 24)

/-- `md5_process`, on the block at index `p`. -/
def md5Process (pms : Md5State) (data : List UInt8) (p : Nat) : Except Fault Md5State := do
  let block ← peekN data p 64
  let X := md5X block
  let v := md5Round4 X (md5Round3 X (md5Round2 X (md5Round1 X pms.abcd)))
  return { pms with abcd := pms.abcd.plus v }

/-- `md5_init`: the block keeps what was in it. -/
def md5Init (pms : Md5State) : Md5State :=
  { pms with
    count0 := 0
    count1 := 0
    abcd := ⟨0x67452301, tMask ^^^ 0x10325476, tMask ^^^ 0x67452301, 0x10325476⟩ }

/-- The loop of `md5_append` over full blocks: the state, `p` and `left`. -/
def md5Blocks : Nat → Md5State → List UInt8 → Nat → Int → Except Fault (Md5State × Nat × Int)
  | 0, _, _, _, _ => .error .hang
  | fuel + 1, pms, data, p, left => do
    if 64 ≤ left then
      let pms ← md5Process pms data p
      md5Blocks fuel pms data (p + 64) (left - 64)
    else return (pms, p, left)

/-- The part of `md5_append` behind the initial partial block. -/
def md5AppendRest (pms : Md5State) (data : List UInt8) (p : Nat) (left : Int) :
    Except Fault Md5State := do
  let (pms, p, left) ← md5Blocks (left.toNat / 64 + 1) pms data p left
  if left ≠ 0 then
    let bs ← peekN data p left.toNat
    let buf ← storeN pms.buf 0 bs
    return { pms with buf := buf }
  else return pms

/-- What `md5_append` adds to the message length. -/
def md5Count (pms : Md5State) (nbytes : Int) : Md5State :=
  let nbits := UInt32.ofInt (nbytes * 8)
  let count1 := pms.count1 + UInt32.ofInt (nbytes / 2 ^ 29)
  let count0 := pms.count0 + nbits
  { pms with count0 := count0, count1 := if count0 < nbits then count1 + 1 else count1 }

/-- `md5_append` -/
def md5Append (pms : Md5State) (data : List UInt8) (nbytes : Int) : Except Fault Md5State := do
  let offset := ((pms.count0 >>> 3) &&& 63).toNat
  if nbytes ≤ 0 then return pms
  else
    let pms := md5Count pms nbytes
    if offset ≠ 0 then
      let copy := if offset + nbytes > 64 then 64 - offset else nbytes.toNat
      let bs ← peekN data 0 copy
      let buf ← storeN pms.buf offset bs
      let pms := { pms with buf := buf }
      if offset + copy < 64 then return pms
      else
        let pms ← md5Process pms pms.buf 0
        md5AppendRest pms data copy (nbytes - copy)
    else md5AppendRest pms data 0 nbytes

/-- The byte `i` of an array of words, as `md5_finish` takes them out. -/
def md5WordByte (words : List UInt32) (i : Nat) : UInt8 :=
  (words.getD (i / 4) 0 >>> (UInt32.ofNat ((i % 4) * 8))).toUInt8

/-- `md5_finish`: the state it leaves and the digest. -/
def md5Finish (pms : Md5State) : Except Fault (Md5State × List UInt8) := do
  let pad := 0x80 :: List.replicate 63 0
  let data := (List.range 8).map (md5WordByte [pms.count0, pms.count1])
  let pms ← md5Append pms pad ((((55 : UInt32) - (pms.count0 >>> 3)) &&& 63) + 1).toNat
  let pms ← md5Append pms data 8
  let digest := (List.range 16).map
    (md5WordByte [pms.abcd.a, pms.abcd.b, pms.abcd.c, pms.abcd.d])
  return (pms, digest)

end

/-! ## the digest of a message -/

/-- The constants of the 64 steps. -/
def md5Table : List UInt32 :=
  [0xd76aa478, 0xe8c7b756, 0x242070db, 0xc1bdceee, 0xf57c0faf, 0x4787c62a, 0xa8304613, 0xfd469501,
   0x698098d8, 0x8b44f7af, 0xffff5bb1, 0x895cd7be, 0x6b901122, 0xfd987193, 0xa679438e, 0x49b40821,
   0xf61e2562, 0xc040b340, 0x265e5a51, 0xe9b6c7aa, 0xd62f105d, 0x02441453, 0xd8a1e681, 0xe7d3fbc8,
   0x21e1cde6, 0xc33707d6, 0xf4d50d87, 0x455a14ed, 0xa9e3e905, 0xfcefa3f8, 0x676f02d9, 0x8d2a4c8a,
   0xfffa3942, 0x8771f681, 0x6d9d6122, 0xfde5380c, 0xa4beea44, 0x4bdecfa9, 0xf6bb4b60, 0xbebfbc70,
   0x289b7ec6, 0xeaa127fa, 0xd4ef3085, 0x04881d05, 0xd9d4d039, 0xe6db99e5, 0x1fa27cf8, 0xc4ac5665,
   0xf4292244, 0x432aff97, 0xab9423a7, 0xfc93a039, 0x655b59c3, 0x8f0ccc92, 0xffeff47d, 0x85845dd1,
   0x6fa87e4f, 0xfe2ce6e0, 0xa3014314, 0x4e0811a1, 0xf7537e82, 0xbd3af235, 0x2ad7d2bb, 0xeb86d391]

/-- The function, the word of the block and the rotation of step `i`. -/
def md5StepFun (i : Nat) : UInt32 → UInt32 → UInt32 → UInt32 :=
  if i < 16 then md5F else if i < 32 then md5G else if i < 48 then md5H else md5I

@[inherit_doc md5StepFun] def md5StepWord (i : Nat) : Fin 16 :=
  if i < 16 then Fin.ofNat 16 i
  else if i < 32 then Fin.ofNat 16 (5 * i + 1)
  else if i < 48 then Fin.ofNat 16 (3 * i + 5)
  else Fin.ofNat 16 (7 * i)

@[inherit_doc md5StepFun] def md5StepShift (i : Nat) : UInt32 :=
  ([[7, 12, 17, 22], [5, 9, 14, 20], [4, 11, 16, 23], [6, 10, 15, 21]].getD (i / 16) []).getD
    (i % 4) 0

/-- The word of four bytes, least significant first. -/
def ofLe32 (a b c d : UInt8) : UInt32 := ofBe32 d c b a

/-- The words of a block, least significant byte first. -/
def md5BlockWord (block : List UInt8) (k : Fin 16) : UInt32 :=
  ofLe32 (block.getD (4 * k.val) 0) (block.getD (4 * k.val + 1) 0) (block.getD (4 * k.val + 2) 0)
    (block.getD (4 * k.val + 3) 0)

/-- Step `i`: `a = b + ((a + f(b,c,d) + X[k] + T[i]) <<< s)`, and the words
change places. -/
def md5Step (X : Fin 16 → UInt32) (v : Abcd) (i : Nat) : Abcd :=
  ⟨v.d, v.b + rotateLeft (v.a + md5StepFun i v.b v.c v.d + X (md5StepWord i) + md5Table.getD i 0)
    (md5StepShift i), v.b, v.c⟩

/-- What a block does to the digest buffer. -/
def md5Compress (v : Abcd) (block : List UInt8) : Abcd :=
  v.plus ((List.range 64).foldl (md5Step (md5BlockWord block)) v)

/-- The bytes behind a message of `n` bytes: a one bit, zeros up to 56 bytes
mod 64, and the length in bits in eight bytes, least significant first. -/
def md5Padding (n : Nat) : List UInt8 :=
  0x80 :: List.replicate ((119 - n % 64) % 64) 0 ++ le32 (UInt32.ofNat (8 * n)) ++
    le32 (UInt32.ofNat (8 * n / 2 ^ 32))

/-- The digest of a message. -/
def md5Digest (msg : List UInt8) : List UInt8 :=
  (Absorb.absorb 64 md5Compress .initial (msg ++ md5Padding msg.length)).bytes

/-! ## the rounds and the steps -/

section
variable {ρ : Type} (set : UInt32 → UInt32 → UInt32 → UInt32 → ρ → UInt32)

/-- One step of a round, for any `SET`: the words change places. -/
def Abcd.turn (v : Abcd) (r : ρ) : Abcd := ⟨v.d, set v.a v.b v.c v.d r, v.b, v.c⟩

/-- Sixteen `SET`s are sixteen turns, after which the words stand in their
places again. -/
theorem unrolled (v : Abcd) (r0 r1 r2 r3 r4 r5 r6 r7 r8 r9 r10 r11 r12 r13 r14 r15 : ρ) :
    (let a := set v.a v.b v.c v.d r0
    let d := set v.d a v.b v.c r1
    let c := set v.c d a v.b r2
    let b := set v.b c d a r3
    let a := set a b c d r4
    let d := set d a b c r5
    let c := set c d a b r6
    let b := set b c d a r7
    let a := set a b c d r8
    let d := set d a b c r9
    let c := set c d a b r10
    let b := set b c d a r11
    let a := set a b c d r12
    let d := set d a b c r13
    let c := set c d a b r14
    let b := set b c d a r15
    (⟨a, b, c, d⟩ : Abcd)) =
      [r0, r1, r2, r3, r4, r5, r6, r7, r8, r9, r10, r11, r12, r13, r14, r15].foldl
        (Abcd.turn set) v := rfl

end

/-- The constants of the source are those of the table. -/
theorem md5Ts_eq : md5Ts = md5Table := by decide

/-- The words, rotations and constants of the rounds. -/
def md5Rows1 : List (Fin 16 × UInt32 × UInt32) :=
  [(0, 7, md5T 1), (1, 12, md5T 2), (2, 17, md5T 3), (3, 22, md5T 4),
   (4, 7, md5T 5), (5, 12, md5T 6), (6, 17, md5T 7), (7, 22, md5T 8),
   (8, 7, md5T 9), (9, 12, md5T 10), (10, 17, md5T 11), (11, 22, md5T 12),
   (12, 7, md5T 13), (13, 12, md5T 14), (14, 17, md5T 15), (15, 22, md5T 16)]

@[inherit_doc md5Rows1] def md5Rows2 : List (Fin 16 × UInt32 × UInt32) :=
  [(1, 5, md5T 17), (6, 9, md5T 18), (11, 14, md5T 19), (0, 20, md5T 20),
   (5, 5, md5T 21), (10, 9, md5T 22), (15, 14, md5T 23), (4, 20, md5T 24),
   (9, 5, md5T 25), (14, 9, md5T 26), (3, 14, md5T 27), (8, 20, md5T 28),
   (13, 5, md5T 29), (2, 9, md5T 30), (7, 14, md5T 31), (12, 20, md5T 32)]

@[inherit_doc md5Rows1] def md5Rows3 : List (Fin 16 × UInt32 × UInt32) :=
  [(5, 4, md5T 33), (8, 11, md5T 34), (11, 16, md5T 35), (14, 23, md5T 36),
   (1, 4, md5T 37), (4, 11, md5T 38), (7, 16, md5T 39), (10, 23, md5T 40),
   (13, 4, md5T 41), (0, 11, md5T 42), (3, 16, md5T 43), (6, 23, md5T 44),
   (9, 4, md5T 45), (12, 11, md5T 46), (15, 16, md5T 47), (2, 23, md5T 48)]

@[inherit_doc md5Rows1] def md5Rows4 : List (Fin 16 × UInt32 × UInt32) :=
  [(0, 6, md5T 49), (7, 10, md5T 50), (14, 15, md5T 51), (5, 21, md5T 52),
   (12, 6, md5T 53), (3, 10, md5T 54), (10, 15, md5T 55), (1, 21, md5T 56),
   (8, 6, md5T 57), (15, 10, md5T 58), (6, 15, md5T 59), (13, 21, md5T 60),
   (4, 6, md5T 61), (11, 10, md5T 62), (2, 15, md5T 63), (9, 21, md5T 64)]

/-- `SET` with the arguments of a row. -/
abbrev md5SetRow (f : UInt32 → UInt32 → UInt32 → UInt32) (X : Fin 16 → UInt32) (a b c d : UInt32)
    (row : Fin 16 × UInt32 × UInt32) : UInt32 :=
  md5Set f X a b c d row.1 row.2.1 row.2.2

/-- The row of step `i`. -/
def md5Row (i : Nat) : Fin 16 × UInt32 × UInt32 := (md5StepWord i, md5StepShift i, md5T (i + 1))

section
variable (X : Fin 16 → UInt32) (v : Abcd)

theorem md5Round1_turns :
    md5Round1 X v = md5Rows1.foldl (Abcd.turn (md5SetRow md5F X)) v := by
  rw [md5Rows1, ← unrolled, md5Round1]

theorem md5Round2_turns :
    md5Round2 X v = md5Rows2.foldl (Abcd.turn (md5SetRow md5G X)) v := by
  rw [md5Rows2, ← unrolled, md5Round2]

theorem md5Round3_turns :
    md5Round3 X v = md5Rows3.foldl (Abcd.turn (md5SetRow md5H X)) v := by
  rw [md5Rows3, ← unrolled, md5Round3]

theorem md5Round4_turns :
    md5Round4 X v = md5Rows4.foldl (Abcd.turn (md5SetRow md5I X)) v := by
  rw [md5Rows4, ← unrolled, md5Round4]

/-- A turn with the row and the function of a step is that step. -/
theorem turn_eq_md5Step {f : UInt32 → UInt32 → UInt32 → UInt32} {i : Nat}
    (hf : md5StepFun i = f) :
    Abcd.turn (md5SetRow f X) v (md5Row i) = md5Step X v i := by
  rw [md5Step, hf, UInt32.add_comm v.b, ← md5Ts_eq]
  rfl

/-- The turns of a round are its steps. -/
theorem foldl_turn (f : UInt32 → UInt32 → UInt32 → UInt32)
    {rows : List (Fin 16 × UInt32 × UInt32)} {start : Nat}
    (hrows : rows = (List.range' start 16).map md5Row)
    (hf : ∀ i ∈ List.range' start 16, md5StepFun i = f) :
    rows.foldl (Abcd.turn (md5SetRow f X)) v = (List.range' start 16).foldl (md5Step X) v := by
  rw [hrows, List.foldl_map]
  exact List.foldl_ext _ _ _ fun v i hi => turn_eq_md5Step X v (hf i hi)

/-- The four rounds are the 64 steps. -/
theorem md5Rounds_eq :
    md5Round4 X (md5Round3 X (md5Round2 X (md5Round1 X v))) =
      (List.range 64).foldl (md5Step X) v := by
  have hrange : List.range 64 =
      List.range' 0 16 ++ (List.range' 16 16 ++ (List.range' 32 16 ++ List.range' 48 16)) := rfl
  have h1 : ∀ i ∈ List.range' 0 16, md5StepFun i = md5F := by
    intro i hi
    rw [List.mem_range'_1] at hi
    simp [md5StepFun, show i < 16 by omega]
  have h2 : ∀ i ∈ List.range' 16 16, md5StepFun i = md5G := by
    intro i hi
    rw [List.mem_range'_1] at hi
    simp [md5StepFun, show ¬ i < 16 by omega, show i < 32 by omega]
  have h3 : ∀ i ∈ List.range' 32 16, md5StepFun i = md5H := by
    intro i hi
    rw [List.mem_range'_1] at hi
    simp [md5StepFun, show ¬ i < 16 by omega, show ¬ i < 32 by omega, show i < 48 by omega]
  have h4 : ∀ i ∈ List.range' 48 16, md5StepFun i = md5I := by
    intro i hi
    rw [List.mem_range'_1] at hi
    simp [md5StepFun, show ¬ i < 16 by omega, show ¬ i < 32 by omega, show ¬ i < 48 by omega]
  rw [md5Round4_turns, md5Round3_turns, md5Round2_turns, md5Round1_turns,
    foldl_turn X _ md5F (by decide) h1, foldl_turn X _ md5G (by decide) h2,
    foldl_turn X _ md5H (by decide) h3, foldl_turn X _ md5I (by decide) h4, hrange,
    List.foldl_append, List.foldl_append, List.foldl_append]

end

/-! ## the words of a block -/

theorem toNat_ofLe32 (a b c d : UInt8) : (ofLe32 a b c d).toNat =
    d.toNat * 16777216 + c.toNat * 65536 + b.toNat * 256 + a.toNat := toNat_ofBe32 d c b a

/-- The word a big-endian machine assembles. -/
theorem shifted_eq_ofLe32 (a b c d : UInt8) :
    a.toUInt32 + (b.toUInt32 <<< 8) + (c.toUInt32 <<< 16) + (d.toUInt32 <<< 24) =
      ofLe32 a b c d := by
  have ha := a.toNat_lt
  have hb := b.toNat_lt
  have hc := c.toNat_lt
  have hd := d.toNat_lt
  apply UInt32.toNat_inj.mp
  rw [toNat_ofLe32]
  simp only [UInt32.toNat_add, UInt32.toNat_shiftLeft, UInt8.toNat_toUInt32, Nat.shiftLeft_eq,
    UInt32.reduceToNat, Nat.reduceMod, Nat.reducePow]
  omega

section
variable [Host]

/-- Both kinds of machine read the same words. -/
theorem md5X_eq (block : List UInt8) : md5X block = md5BlockWord block := by
  funext k
  cases hbig : Host.bigEndian with
  | false =>
    have hone : (store32 1).headD 0 = 1 := by rw [store32, hbig]; rfl
    rw [md5X, if_pos (by rw [hone]; decide), load32, hbig]
    rfl
  | true =>
    have hone : (store32 1).headD 0 = 0 := by rw [store32, hbig]; rfl
    rw [md5X, if_neg (by rw [hone]; decide), shifted_eq_ofLe32]
    rfl

/-- **A block**: the unrolled rounds over the words in place are the 64
numbered steps over the words of the block. -/
theorem md5Process_eq (pms : Md5State) {pre block rest : List UInt8} {p : Nat}
    (hp : pre.length = p) (hblock : block.length = 64) :
    md5Process pms (pre ++ (block ++ rest)) p =
      .ok { pms with abcd := md5Compress pms.abcd block } := by
  have hread : peekN (pre ++ (block ++ rest)) p 64 = .ok block := by
    rw [← hblock]
    exact peekN_append hp
  rw [md5Process, hread, ok_bind]
  simp only [md5X_eq, md5Rounds_eq]
  rfl

/-- The block that was collected. -/
theorem md5Process_whole (pms : Md5State) {block : List UInt8} (hblock : block.length = 64) :
    md5Process pms block 0 = .ok { pms with abcd := md5Compress pms.abcd block } := by
  have h := @md5Process_eq _ pms [] block [] 0 rfl hblock
  rwa [List.append_nil] at h

/-! ## appends -/

omit [Host] in
@[simp] theorem md5Count_abcd (pms : Md5State) (n : Int) : (md5Count pms n).abcd = pms.abcd := rfl

omit [Host] in
@[simp] theorem md5Count_buf (pms : Md5State) (n : Int) : (md5Count pms n).buf = pms.buf := rfl

/-- The loop runs over the whole blocks and stops in front of what they leave. -/
theorem md5Blocks_eq (pms : Md5State) {pre bs behind : List UInt8} {p fuel : Nat}
    (hp : pre.length = p) (hfuel : bs.length / 64 < fuel) :
    md5Blocks fuel pms (pre ++ (bs ++ behind)) p bs.length =
      .ok ({ pms with abcd := Absorb.absorb 64 md5Compress pms.abcd bs },
        p + bs.length / 64 * 64, (bs.length % 64 : Nat)) := by
  induction fuel generalizing pms pre bs p with
  | zero => omega
  | succ fuel ih =>
    by_cases hle : 64 ≤ bs.length
    · have hblock : (bs.take 64).length = 64 := by rw [List.length_take]; omega
      have hdrop : (bs.drop 64).length = bs.length - 64 := List.length_drop
      have hsplit : pre ++ (bs ++ behind) = pre ++ (bs.take 64 ++ (bs.drop 64 ++ behind)) := by
        rw [← List.append_assoc (bs.take 64), List.take_append_drop]
      have hleft : (bs.length : Int) - 64 = (bs.drop 64).length := by omega
      have habsorb := Absorb.absorb_block md5Compress (by omega) pms.abcd hblock (bs.drop 64)
      rw [List.take_append_drop] at habsorb
      rw [md5Blocks, if_pos (by omega), hsplit, md5Process_eq pms hp hblock, ok_bind,
        ← List.append_assoc pre, hleft,
        ih _ (by rw [List.length_append, hp, hblock]) (by omega), habsorb]
      congr 3 <;> omega
    · rw [md5Blocks, if_neg (by omega), Absorb.absorb_of_lt _ _ (by omega),
        Nat.div_eq_of_lt (by omega), Nat.mod_eq_of_lt (by omega), Nat.zero_mul, Nat.add_zero]
      rfl

/-- The whole blocks go into the digest buffer, the bytes behind them to the
front of the collected block. -/
theorem md5AppendRest_eq {pms : Md5State} (hbuf : pms.buf.length = 64)
    {pre bs behind : List UInt8} {p : Nat} (hp : pre.length = p) :
    md5AppendRest pms (pre ++ (bs ++ behind)) p bs.length =
      .ok { pms with
        abcd := Absorb.absorb 64 md5Compress pms.abcd bs
        buf := poke pms.buf 0 (Absorb.rest 64 bs) } := by
  have hrest := Absorb.length_rest (n := 64) bs
  rw [md5AppendRest, Int.toNat_natCast, md5Blocks_eq pms hp (by omega), ok_bind]
  by_cases hzero : bs.length % 64 = 0
  · have hnil : Absorb.rest 64 bs = [] := List.eq_nil_of_length_eq_zero (by omega)
    simp only [hzero, hnil, poke_nil]
    rfl
  · have hsplit : pre ++ (bs ++ behind) =
        (pre ++ bs.take (bs.length / 64 * 64)) ++ (Absorb.rest 64 bs ++ behind) := by
      rw [Absorb.rest, List.append_assoc, ← List.append_assoc (bs.take _), List.take_append_drop]
    have hread : peekN (pre ++ (bs ++ behind)) (p + bs.length / 64 * 64) (bs.length % 64) =
        .ok (Absorb.rest 64 bs) := by
      rw [hsplit, ← hrest]
      exact peekN_append (by rw [List.length_append, List.length_take, hp]; omega)
    have hstore : storeN pms.buf 0 (Absorb.rest 64 bs) =
        .ok (poke pms.buf 0 (Absorb.rest 64 bs)) := storeN_of_le (by omega)
    simp only [Int.toNat_natCast, hread, ok_bind, hstore]
    rw [if_pos (by omega)]
    rfl

end

/-- The state has taken the message `msg`: its whole blocks are in the digest
buffer, what they leave waits in the block, and its bits are counted. -/
structure Md5State.Took (pms : Md5State) (msg : List UInt8) : Prop where
  count : pms.count0.toNat + 2 ^ 32 * pms.count1.toNat = 8 * msg.length % 2 ^ 64
  abcd : pms.abcd = Absorb.absorb 64 md5Compress .initial msg
  length_buf : pms.buf.length = 64
  buf : pms.buf.take (msg.length % 64) = Absorb.rest 64 msg

namespace Md5State.Took

variable {pms pms' : Md5State} {msg bs : List UInt8}

/-- Before the first byte. -/
theorem init (hbuf : pms.buf.length = 64) : (md5Init pms).Took [] where
  count := rfl
  abcd := by
    rw [Absorb.absorb_of_lt _ _ (by decide)]
    rfl
  length_buf := hbuf
  buf := by simp [md5Init, Absorb.rest]

/-- The bytes that wait, read from the count. -/
theorem offset (h : pms.Took msg) : ((pms.count0 >>> 3) &&& 63).toNat = msg.length % 64 := by
  have hcount := h.count
  have hlow := pms.count0.toNat_lt
  have hmask : ((pms.count0 >>> 3) &&& 63).toNat = pms.count0.toNat / 8 % 64 := by
    rw [UInt32.toNat_and, UInt32.toNat_shiftRight]
    simp only [UInt32.reduceToNat, Nat.reduceMod, Nat.shiftRight_eq_div_pow, Nat.reducePow]
    exact Nat.and_two_pow_sub_one_eq_mod (pms.count0.toNat / 8) 6
  omega

/-- The carry from the low word of the count to the high one. -/
theorem counted (h : pms.Took msg) {n : Nat} (hn : n < 2 ^ 28) :
    (md5Count pms n).count0.toNat + 2 ^ 32 * (md5Count pms n).count1.toNat =
      8 * (msg.length + n) % 2 ^ 64 := by
  have hcount := h.count
  have h0 := pms.count0.toNat_lt
  have h1 := pms.count1.toNat_lt
  have hbits : (UInt32.ofInt (n * 8)).toNat = n * 8 := by
    rw [UInt32.ofInt, UInt32.toNat_ofNat']
    omega
  have hhigh : UInt32.ofInt ((n : Int) / 2 ^ 29) = 0 := by
    rw [show (n : Int) / 2 ^ 29 = 0 by omega]
    rfl
  have hlow : (pms.count0 + UInt32.ofInt (n * 8)).toNat =
      (pms.count0.toNat + n * 8) % 2 ^ 32 := by rw [UInt32.toNat_add, hbits]
  have hcarry : (pms.count1 + 1).toNat = (pms.count1.toNat + 1) % 2 ^ 32 := UInt32.toNat_add _ _
  simp only [md5Count, hhigh, UInt32.add_zero, hlow]
  split
  case isTrue hlt =>
    rw [UInt32.lt_iff_toNat_lt, hlow, hbits] at hlt
    omega
  case isFalse hlt =>
    rw [UInt32.lt_iff_toNat_lt, hlow, hbits] at hlt
    omega

/-- What is left to show of an append: the bytes that waited come first. -/
theorem append (h : pms.Took msg)
    (hcount : pms'.count0.toNat + 2 ^ 32 * pms'.count1.toNat =
      8 * (msg.length + bs.length) % 2 ^ 64)
    (habcd : pms'.abcd = Absorb.absorb 64 md5Compress pms.abcd (Absorb.rest 64 msg ++ bs))
    (hlength : pms'.buf.length = 64)
    (hbuf : pms'.buf.take ((msg.length + bs.length) % 64) =
      Absorb.rest 64 (Absorb.rest 64 msg ++ bs)) : pms'.Took (msg ++ bs) where
  count := by rw [List.length_append, hcount]
  abcd := by rw [habcd, h.abcd, ← Absorb.absorb_append md5Compress (by omega)]
  length_buf := hlength
  buf := by rw [List.length_append, hbuf, ← Absorb.rest_append (by omega)]

end Md5State.Took

section
variable [Host]

section
variable {pms : Md5State} {msg bs : List UInt8} (h : pms.Took msg) (hbs : bs.length < 2 ^ 28)
  (hnil : bs.length ≠ 0)
include h hbs hnil

/-- An append when nothing waits. -/
theorem md5Append_took_fresh (behind : List UInt8) (hzero : msg.length % 64 = 0) :
    ∃ pms', md5Append pms (bs ++ behind) bs.length = .ok pms' ∧ pms'.Took (msg ++ bs) := by
  have hwait := Absorb.length_rest (n := 64) msg
  have hlength := h.length_buf
  have hnone : Absorb.rest 64 msg = [] := List.eq_nil_of_length_eq_zero (by omega)
  have hrest := Absorb.length_rest (n := 64) bs
  have hmod : (msg.length + bs.length) % 64 = bs.length % 64 := by omega
  rw [md5Append, if_neg (by omega)]
  simp only [h.offset]
  rw [if_neg (by omega)]
  refine ⟨_, @md5AppendRest_eq _ (md5Count pms bs.length) hlength [] bs behind 0 rfl,
    h.append (h.counted hbs) ?_ ?_ ?_⟩
  · rw [hnone, List.nil_append, md5Count_abcd]
  · rw [md5Count_buf, length_poke (by omega), hlength]
  · rw [hnone, List.nil_append, hmod, ← hrest]
    simpa using @take_poke pms.buf (Absorb.rest 64 bs) 0 (Nat.zero_le _)

/-- An append that does not finish the block. -/
theorem md5Append_took_short (behind : List UInt8) (hzero : msg.length % 64 ≠ 0)
    (hfit : msg.length % 64 + bs.length < 64) :
    ∃ pms', md5Append pms (bs ++ behind) bs.length = .ok pms' ∧ pms'.Took (msg ++ bs) := by
  have hwait := Absorb.length_rest (n := 64) msg
  have hlength := h.length_buf
  have hmod : (msg.length + bs.length) % 64 = msg.length % 64 + bs.length := by omega
  have hcopy : (if ((msg.length % 64 : Nat) : Int) + bs.length > 64 then 64 - msg.length % 64
      else Int.toNat bs.length) = bs.length := by
    rw [if_neg (by omega), Int.toNat_natCast]
  have hread : peekN (bs ++ behind) 0 bs.length = .ok bs := @peekN_append [] bs behind 0 rfl
  have hstore : storeN pms.buf (msg.length % 64) bs = .ok (poke pms.buf (msg.length % 64) bs) :=
    storeN_of_le (by omega)
  have hshort : (Absorb.rest 64 msg ++ bs).length < 64 := by
    rw [List.length_append]
    omega
  rw [md5Append, if_neg (by omega)]
  simp only [h.offset]
  rw [if_pos hzero]
  simp only [hcopy, hread, ok_bind]
  rw [md5Count_buf, hstore, ok_bind, if_pos hfit]
  refine ⟨_, rfl, h.append (h.counted hbs) ?_ ?_ ?_⟩
  · rw [Absorb.absorb_of_lt _ _ hshort]
    rfl
  · rw [length_poke (by omega)]
    exact hlength
  · rw [hmod, Absorb.rest_of_lt hshort, ← h.buf]
    exact take_poke (by omega)

/-- An append that finishes the block, and goes on. -/
theorem md5Append_took_full (behind : List UInt8) (hzero : msg.length % 64 ≠ 0)
    (hfit : 64 ≤ msg.length % 64 + bs.length) :
    ∃ pms', md5Append pms (bs ++ behind) bs.length = .ok pms' ∧ pms'.Took (msg ++ bs) := by
  have hwait := Absorb.length_rest (n := 64) msg
  have hlength := h.length_buf
  have hcounted := h.counted hbs
  obtain ⟨head, tail, rfl, hhead⟩ : ∃ head tail, bs = head ++ tail ∧
      head.length = 64 - msg.length % 64 :=
    ⟨bs.take (64 - msg.length % 64), bs.drop (64 - msg.length % 64),
      (List.take_append_drop _ _).symm, by rw [List.length_take]; omega⟩
  rw [List.length_append] at hnil hfit
  have hcopy : (if ((msg.length % 64 : Nat) : Int) + (head ++ tail).length > 64
      then 64 - msg.length % 64 else Int.toNat (head ++ tail).length) = head.length := by
    rw [hhead, List.length_append]
    split <;> omega
  have hread : peekN (head ++ tail ++ behind) 0 head.length = .ok head := by
    rw [List.append_assoc]
    exact @peekN_append [] head (tail ++ behind) 0 rfl
  have hstore : storeN pms.buf (msg.length % 64) head =
      .ok (poke pms.buf (msg.length % 64) head) := storeN_of_le (by omega)
  have hfull : poke pms.buf (msg.length % 64) head = Absorb.rest 64 msg ++ head := by
    have htake := @take_poke pms.buf head (msg.length % 64) (by omega)
    rw [List.take_of_length_le (by rw [length_poke (by omega)]; omega)] at htake
    rw [htake, h.buf]
  have hblock : (Absorb.rest 64 msg ++ head).length = 64 := by
    rw [List.length_append]
    omega
  have hleft : ((head ++ tail).length : Int) - head.length = tail.length := by
    rw [List.length_append]
    omega
  rw [md5Append, if_neg (by rw [List.length_append]; omega)]
  simp only [h.offset]
  rw [if_pos hzero]
  simp only [hcopy, hread, ok_bind]
  rw [md5Count_buf, hstore, ok_bind, if_neg (by omega), hfull, md5Process_whole _ hblock,
    ok_bind, hleft, List.append_assoc head]
  have hrest := Absorb.length_rest (n := 64) tail
  refine ⟨_, md5AppendRest_eq hblock rfl, h.append hcounted ?_ ?_ ?_⟩
  · rw [← List.append_assoc, Absorb.absorb_block md5Compress (by omega) _ hblock]
    rfl
  · have hle : 0 + (Absorb.rest 64 tail).length ≤ (Absorb.rest 64 msg ++ head).length := by omega
    exact (length_poke hle).trans hblock
  · rw [← List.append_assoc, Absorb.rest_block (by omega) hblock, List.length_append,
      show (msg.length + (head.length + tail.length)) % 64 = 0 + (Absorb.rest 64 tail).length by
        omega, take_poke (Nat.zero_le _)]
    rfl

end

/-- **An append** takes its bytes, whatever waits already. -/
theorem md5Append_took {pms : Md5State} {msg : List UInt8} (h : pms.Took msg) {bs : List UInt8}
    (hbs : bs.length < 2 ^ 28) (behind : List UInt8) :
    ∃ pms', md5Append pms (bs ++ behind) bs.length = .ok pms' ∧ pms'.Took (msg ++ bs) := by
  by_cases hnil : bs.length = 0
  · have hempty : bs = [] := List.eq_nil_of_length_eq_zero hnil
    refine ⟨pms, ?_, by rw [hempty, List.append_nil]; exact h⟩
    rw [md5Append, if_pos (by omega)]
    rfl
  by_cases hzero : msg.length % 64 = 0
  · exact md5Append_took_fresh h hbs hnil behind hzero
  by_cases hfit : msg.length % 64 + bs.length < 64
  · exact md5Append_took_short h hbs hnil behind hzero hfit
  · exact md5Append_took_full h hbs hnil behind hzero (Nat.le_of_not_lt hfit)

/-- Appends of any pieces take what the pieces are together. -/
theorem md5Appends_took {pms : Md5State} {msg : List UInt8} (h : pms.Took msg)
    {pieces : List (List UInt8)} (hpieces : ∀ bs ∈ pieces, bs.length < 2 ^ 28) :
    ∃ pms', pieces.foldlM (fun pms bs => md5Append pms bs bs.length) pms = .ok pms' ∧
      pms'.Took (msg ++ pieces.flatten) := by
  induction pieces generalizing pms msg with
  | nil => exact ⟨pms, rfl, by simpa using h⟩
  | cons bs pieces ih =>
    obtain ⟨pms', happend, htook⟩ := md5Append_took h (hpieces bs List.mem_cons_self) []
    obtain ⟨pms'', hrun, htook'⟩ := ih htook fun bs hbs => hpieces bs (List.mem_cons_of_mem _ hbs)
    rw [List.append_nil] at happend
    refine ⟨pms'', ?_, by simpa using htook'⟩
    rw [List.foldlM_cons, happend, ok_bind, hrun]

end

/-! ## the end of a message -/

/-- A byte shifted out of a word. -/
theorem toUInt8_shiftRight (c : UInt32) {j : Nat} (hj : j < 4) :
    (c >>> UInt32.ofNat (j * 8)).toUInt8 = (le32 c).getD j 0 := by
  have hshift : (UInt32.ofNat (j * 8)).toNat % 32 = 8 * j := by
    rw [UInt32.toNat_ofNat']
    omega
  have hbyte : (le32 c).getD j 0 = UInt8.ofNat (c.toNat / 256 ^ j) := by
    interval_cases j <;> simp [le32, be32]
  apply UInt8.toNat_inj.mp
  rw [hbyte, UInt32.toNat_toUInt8, UInt32.toNat_shiftRight, hshift, Nat.shiftRight_eq_div_pow,
    Nat.pow_mul, UInt8.toNat_ofNat']

/-- The bytes of the words in order, each least significant byte first. -/
theorem md5WordByte_eq (words : List UInt32) (i : Nat) :
    md5WordByte words i = (le32 (words.getD (i / 4) 0)).getD (i % 4) 0 :=
  toUInt8_shiftRight _ (Nat.mod_lt _ (by decide))

/-- The bytes of the count. -/
theorem md5WordByte_count (c0 c1 : UInt32) :
    (List.range 8).map (md5WordByte [c0, c1]) = le32 c0 ++ le32 c1 := by
  simp only [funext (md5WordByte_eq [c0, c1])]
  rfl

/-- The bytes of the digest buffer. -/
theorem md5WordByte_abcd (v : Abcd) :
    (List.range 16).map (md5WordByte [v.a, v.b, v.c, v.d]) = v.bytes := by
  simp only [funext (md5WordByte_eq [v.a, v.b, v.c, v.d])]
  rfl

namespace Md5State.Took

variable {pms : Md5State} {msg : List UInt8}

/-- The words of the count are those of the length in bits. -/
theorem count0_eq (h : pms.Took msg) : pms.count0 = UInt32.ofNat (8 * msg.length) := by
  have hcount := h.count
  have h0 := pms.count0.toNat_lt
  apply UInt32.toNat_inj.mp
  rw [UInt32.toNat_ofNat']
  omega

@[inherit_doc count0_eq] theorem count1_eq (h : pms.Took msg) :
    pms.count1 = UInt32.ofNat (8 * msg.length / 2 ^ 32) := by
  have hcount := h.count
  have h0 := pms.count0.toNat_lt
  have h1 := pms.count1.toNat_lt
  apply UInt32.toNat_inj.mp
  rw [UInt32.toNat_ofNat']
  omega

/-- The size of the padding, read from the count. -/
theorem padding (h : pms.Took msg) :
    ((((55 : UInt32) - (pms.count0 >>> 3)) &&& 63) + 1).toNat =
      (119 - msg.length % 64) % 64 + 1 := by
  have hoffset := h.offset
  have hlow := (pms.count0 >>> 3).toNat_lt
  have hmask (x : UInt32) : (x &&& 63).toNat = x.toNat % 64 := by
    rw [UInt32.toNat_and]
    exact Nat.and_two_pow_sub_one_eq_mod x.toNat 6
  rw [hmask] at hoffset
  rw [UInt32.toNat_add, hmask, UInt32.toNat_sub]
  simp only [UInt32.reduceToNat]
  omega

end Md5State.Took

section
variable [Host]

/-- **The end**: the padding and the length are two more appends, and the
digest is that of the message. -/
theorem md5Finish_eq {pms : Md5State} {msg : List UInt8} (h : pms.Took msg) :
    ∃ pms', md5Finish pms = .ok (pms', md5Digest msg) := by
  have hsplit : (0x80 :: List.replicate 63 0 : List UInt8) =
      (0x80 :: List.replicate ((119 - msg.length % 64) % 64) 0) ++
        List.replicate (63 - (119 - msg.length % 64) % 64) 0 := by
    rw [List.cons_append, List.replicate_append_replicate]
    congr 2
    omega
  have hlen : (0x80 :: List.replicate ((119 - msg.length % 64) % 64) 0 : List UInt8).length =
      (119 - msg.length % 64) % 64 + 1 := by rw [List.length_cons, List.length_replicate]
  obtain ⟨pms₁, hpad, htook₁⟩ := @md5Append_took _ _ _ h
    (0x80 :: List.replicate ((119 - msg.length % 64) % 64) 0) (by omega)
    (List.replicate (63 - (119 - msg.length % 64) % 64) 0)
  obtain ⟨pms₂, hcount, htook₂⟩ := @md5Append_took _ _ _ htook₁
    (le32 pms.count0 ++ le32 pms.count1) (by simp [le32]) []
  rw [List.append_nil] at hcount
  have hmsg : msg ++ (0x80 :: List.replicate ((119 - msg.length % 64) % 64) 0) ++
      (le32 pms.count0 ++ le32 pms.count1) = msg ++ md5Padding msg.length := by
    rw [h.count0_eq, h.count1_eq, md5Padding]
    simp only [List.append_assoc]
  refine ⟨pms₂, ?_⟩
  rw [md5Finish, h.padding, hsplit, ← hlen, hpad, ok_bind, md5WordByte_count]
  rw [show (8 : Int) = (le32 pms.count0 ++ le32 pms.count1).length from rfl, hcount, ok_bind,
    md5WordByte_abcd, htook₂.abcd, hmsg]
  rfl

/-- **A message in pieces**: appended in any pieces on either kind of machine,
it has the digest that it has as a whole, and no byte outside the block or
outside a piece is touched on the way. -/
theorem md5_pieces {pms : Md5State} (hbuf : pms.buf.length = 64) {pieces : List (List UInt8)}
    (hpieces : ∀ bs ∈ pieces, bs.length < 2 ^ 28) :
    ∃ pms', (pieces.foldlM (fun pms bs => md5Append pms bs bs.length) (md5Init pms) >>= md5Finish) =
      .ok (pms', md5Digest pieces.flatten) := by
  obtain ⟨pms₁, hrun, htook⟩ := md5Appends_took (.init hbuf) hpieces
  obtain ⟨pms₂, hfinish⟩ := md5Finish_eq htook
  exact ⟨pms₂, by rw [hrun, ok_bind, hfinish, List.nil_append]⟩

end

/-- "a" and "bc", from a block that held something else. -/
theorem md5_pieces_abc :
    ∃ pms', ([[97], [98, 99]].foldlM
      (fun pms bs => @md5Append littleEndianHost pms bs bs.length)
        (md5Init ⟨1, 2, ⟨3, 4, 5, 6⟩, List.replicate 64 7⟩) >>= @md5Finish littleEndianHost) =
      .ok (pms', md5Digest [97, 98, 99]) :=
  @md5_pieces littleEndianHost _ List.length_replicate [[97], [98, 99]] (by decide)

example : md5Digest [97, 98, 99] =
    [0x90, 0x01, 0x50, 0x98, 0x3c, 0xd2, 0x4f, 0xb0, 0xd6, 0x96, 0x3f, 0x7d, 0x28, 0xe1, 0x7f,
      0x72] := by decide +kernel

/-! ## the answer to a login key -/

theorem length_md5Digest (msg : List UInt8) : (md5Digest msg).length = 16 := rfl

/-- A host that links this digest. -/
@[reducible] def md5Host (bigEndian : Bool) (fresh : Nat → UInt8) : Host where
  bigEndian := bigEndian
  fresh := fresh
  md5 := fun msg => ⟨(md5Digest msg).toArray, length_md5Digest msg⟩

/-- The `md5_` calls of `bos_md5snac`; `state` is what the stack holds. -/
def bosMd5Hash [Host] (state : Md5State) (authkey pw : Str) : Except Fault (List UInt8) := do
  let state := md5Init state
  let state ← md5Append state authkey authkey.length
  let state ← md5Append state (terminated pw) pw.length
  let state ← md5Append state (terminated aimMd5String) aimMd5String.length
  let (_, authHash) ← md5Finish state
  return authHash

theorem bosMd5Hash_eq [Host] {state : Md5State} (hstate : state.buf.length = 64) {authkey pw : Str}
    (hkey : authkey.length < 2 ^ 28) (hpw : pw.length < 2 ^ 28) :
    bosMd5Hash state authkey pw = .ok (md5Digest (authkey ++ pw ++ aimMd5String)) := by
  obtain ⟨s₁, happend₁, h₁⟩ := md5Append_took (.init hstate) hkey []
  obtain ⟨s₂, happend₂, h₂⟩ := md5Append_took h₁ hpw [0]
  obtain ⟨s₃, happend₃, h₃⟩ := @md5Append_took _ _ _ h₂ aimMd5String (by decide) [0]
  obtain ⟨s₄, hfinish⟩ := md5Finish_eq h₃
  rw [List.append_nil] at happend₁
  rw [bosMd5Hash]
  simp only [happend₁, ok_bind, terminated, happend₂, happend₃, hfinish]
  rfl

/-- **The digest of a login**: whatever the stack held, the calls of
`bos_md5snac` digest the key, the password and the string, and the packet that
answers the key carries that digest where the server looks for it. -/
theorem login_digest [Network] (bigEndian : Bool) (fresh : Nat → UInt8) {σ : Type}
    (cbs : Callbacks σ) {w : World σ} {sn pw key : Str} (hsn : w.handle.sn = some sn)
    (hpw : w.handle.pw = some pw) (hkey : key.length ≤ 65535) (hpwlen : pw.length < 2 ^ 28)
    (hfit : 10 + loginSize sn ≤ 65535) {state : Md5State} (hstate : state.buf.length = 64)
    (flags : UInt16) (reqid : UInt32) (rest : List UInt8) (len : Nat) :
    letI := md5Host bigEndian fresh
    ∃ authHash, bosMd5Hash state key pw = .ok authHash ∧
      authHash = md5Digest (key ++ pw ++ aimMd5String) ∧
      bosMd5snac cbs w (keyPayload flags reqid key rest) len =
        .ok { w with handle := (snacSendpkt w.handle 0x17 0x02
          (pktAddAll (pktInit (loginSize sn)) (loginFields sn authHash)) 0).1 } ∧
      Carries (loginSize sn) (loginFields sn authHash) 0 (loginEntries sn authHash) := by
  let _ := md5Host bigEndian fresh
  have hlogin := bosMd5snac_key cbs hsn hpw flags reqid hkey rest len
  have hcarries := @login_carries _ sn (Host.md5 (key ++ pw ++ aimMd5String))
  have hident : clientIdent.length = 11 := by decide
  have hen : (ascii "en").length = 2 := by decide
  have hus : (ascii "us").length = 2 := by decide
  refine ⟨_, bosMd5Hash_eq hstate (by omega) hpwlen, rfl, hlogin, hcarries ?_⟩
  rw [loginSize, hident] at hfit
  simp only [loginEntries, length_entryBytes_cons, entryBytes_nil, List.length_nil,
    Vector.length_toList, hident, hen, hus, length_be16, length_be32, List.length_cons]
  omega

/-- The user "al" with the password "pw" answers the key "k7". -/
theorem login_digest_short :
    letI := md5Host true fun _ => 0
    ∃ authHash, bosMd5Hash ⟨1, 2, ⟨3, 4, 5, 6⟩, List.replicate 64 7⟩ (ascii "k7") (ascii "pw") =
        .ok authHash ∧
      authHash = md5Digest (ascii "k7" ++ ascii "pw" ++ aimMd5String) ∧
      @bosMd5snac _ acceptingNetwork _ recorder ⟨handleOfUser, [], []⟩
          (keyPayload 0 0 (ascii "k7") []) 14 =
        .ok ⟨(snacSendpkt handleOfUser 0x17 0x02 (pktAddAll (pktInit (loginSize (ascii "al")))
          (loginFields (ascii "al") authHash)) 0).1, [], []⟩ ∧
      Carries (loginSize (ascii "al")) (loginFields (ascii "al") authHash) 0
        (loginEntries (ascii "al") authHash) :=
  @login_digest acceptingNetwork true (fun _ => 0) _ recorder ⟨handleOfUser, [], []⟩ (ascii "al")
    (ascii "pw") (ascii "k7") rfl rfl (by decide) (by decide) (by decide)
    ⟨1, 2, ⟨3, 4, 5, 6⟩, List.replicate 64 7⟩ List.length_replicate 0 0 [] 14

end Bsflite
