import Mathlib.Algebra.Ring.Nat
import Mathlib.Tactic.Common

/-!
# Byte memories

A memory assigns a byte to every address.  Words are stored in four consecutive
bytes, the least significant byte first.  The operations on a memory are writing a
byte or a word, filling a range with one byte, and copying a range; the lemmas say
what each of them does to a word read inside and outside the range it touches.
-/

namespace Bytes

/-- A byte. -/
abbrev Byte := BitVec 8

/-- A 32-bit machine word. -/
abbrev Word := BitVec 32

/-- A memory: the byte at each address. -/
abbrev Memory := Nat → Byte

/-- The `i`-th byte of a word, counted from the least significant one. -/
def byteOf (w : Word) (i : Nat) : Byte :=
  w.extractLsb' (8 * i) 8

/-- The word stored at `a`. -/
def read32 (m : Memory) (a : Nat) : Word :=
  m (a + 3) ++ m (a + 2) ++ m (a + 1) ++ m a

/-- Store the byte `b` at `a`. -/
def write8 (m : Memory) (a : Nat) (b : Byte) : Memory :=
  fun x => if x = a then b else m x

/-- Store the word `w` at `a`. -/
def write32 (m : Memory) (a : Nat) (w : Word) : Memory :=
  fun x => if a ≤ x ∧ x < a + 4 then byteOf w (x - a) else m x

/-- Set the `n` bytes from `a` on to `b`. -/
def fill (m : Memory) (a n : Nat) (b : Byte) : Memory :=
  fun x => if a ≤ x ∧ x < a + n then b else m x

/-- Store bytes from `a` on. -/
def writeBytes (m : Memory) (a : Nat) (bs : List Byte) : Memory :=
  fun x => if a ≤ x ∧ x < a + bs.length then bs.getD (x - a) 0 else m x

/-! ### Bytes and words -/

/-- A word is put together from its four bytes. -/
theorem append_byteOf (w : Word) :
  byteOf w 3 ++ byteOf w 2 ++ byteOf w 1 ++ byteOf w 0 = w
  := by
  apply BitVec.eq_of_getLsbD_eq
  intro i hi
  simp only [byteOf, BitVec.getLsbD_append, BitVec.getLsbD_extractLsb']
  by_cases h0 : i < 8
  · simp [h0]
  · by_cases h1 : i < 16
    · have h : 8 + (i - 8) = i := by omega
      simp [h0, h, show i - 8 < 8 by omega]
    · by_cases h2 : i < 24
      · have h : 16 + (i - 8 - 8) = i := by omega
        simp [h0, h, show ¬ i - 8 < 8 by omega, show i - 8 - 8 < 8 by omega]
      · have h : 24 + (i - 8 - 8 - 8) = i := by omega
        simp [h0, h, show ¬ i - 8 < 8 by omega, show ¬ i - 8 - 8 < 8 by omega,
          show i - 8 - 8 - 8 < 8 by omega]

/-- Clearing bits below the `k`-th one does not change the bits above. -/
theorem shiftRight_clear_low {w mask : Word} {k : Nat}
    (hmask : ∀ i < 32, mask.getLsbD i = decide (i < k)) :
  (w &&& ~~~ mask) >>> k = w >>> k
  := by
  apply BitVec.eq_of_getLsbD_eq
  intro i _
  rw [BitVec.getLsbD_ushiftRight, BitVec.getLsbD_ushiftRight, BitVec.getLsbD_and,
    BitVec.getLsbD_not]
  by_cases hi : k + i < 32
  · rw [hmask _ hi]
    simp [hi]
  · simp [BitVec.getLsbD_of_ge w (k + i) (by omega)]

/-- Two memories that agree on four bytes hold the same word there. -/
theorem read32_congr {m m' : Memory} {a : Nat} (h : ∀ x, a ≤ x → x < a + 4 → m x = m' x) :
  read32 m a = read32 m' a
  := by
  rw [read32, read32, h a (by omega) (by omega), h (a + 1) (by omega) (by omega),
    h (a + 2) (by omega) (by omega), h (a + 3) (by omega) (by omega)]

/-- The word whose bytes are stored from `a` on is the one read there. -/
theorem read32_of_bytes {m : Memory} {a : Nat} {w : Word} (h : ∀ i < 4, m (a + i) = byteOf w i) :
  read32 m a = w
  := by
  have h0 := h 0 (by omega)
  rw [Nat.add_zero] at h0
  rw [read32, h 3 (by omega), h 2 (by omega), h 1 (by omega), h0]
  apply append_byteOf

/-- The word just written is the one read back. -/
theorem read32_write32 (m : Memory) (a : Nat) (w : Word) :
  read32 (write32 m a w) a = w
  := by
  apply read32_of_bytes
  intro i hi
  rw [write32, if_pos (by omega), Nat.add_sub_cancel_left]

/-- A word is written byte by byte. -/
theorem write8_bytes (m : Memory) (a : Nat) (w : Word) :
  write8 (write8 (write8 (write8 m a (byteOf w 0)) (a + 1) (byteOf w 1)) (a + 2) (byteOf w 2))
      (a + 3) (byteOf w 3)
    = write32 m a w
  := by
  funext x
  simp only [write8, write32]
  by_cases hx : a ≤ x ∧ x < a + 4
  · rw [if_pos hx]
    obtain ⟨i, rfl⟩ := Nat.exists_eq_add_of_le hx.1
    obtain rfl | rfl | rfl | rfl : i = 0 ∨ i = 1 ∨ i = 2 ∨ i = 3 := by omega
    all_goals simp
  · rw [if_neg hx, if_neg (by omega), if_neg (by omega), if_neg (by omega), if_neg (by omega)]

/-- A word is not changed by a write to other bytes. -/
theorem read32_write32_of_disjoint
    (m : Memory) {a b : Nat} (w : Word) (h : a + 4 ≤ b ∨ b + 4 ≤ a) :
  read32 (write32 m a w) b = read32 m b
  := by
  apply read32_congr
  intro x hx hx'
  rw [write32, if_neg (by omega)]

/-- A byte is not changed by a word written elsewhere. -/
theorem write32_of_disjoint (m : Memory) {a x : Nat} (w : Word) (h : x < a ∨ a + 4 ≤ x) :
  write32 m a w x = m x
  := by
  rw [write32, if_neg (by omega)]

/-- The bytes that a word is read from are its bytes. -/
theorem byteOf_read32 (m : Memory) (a : Nat) {i : Nat} (hi : i < 4) :
  byteOf (read32 m a) i = m (a + i)
  := by
  apply BitVec.eq_of_getLsbD_eq
  intro j hj
  rw [byteOf, BitVec.getLsbD_extractLsb', decide_eq_true hj, Bool.true_and, read32]
  simp only [BitVec.getLsbD_append]
  obtain rfl | rfl | rfl | rfl : i = 0 ∨ i = 1 ∨ i = 2 ∨ i = 3 := by omega
  · grind
  · grind
  · grind
  · grind

/-- A word stored over another one replaces it. -/
theorem write32_write32 (m : Memory) (a : Nat) (w w' : Word) :
  write32 (write32 m a w) a w' = write32 m a w'
  := by
  funext x
  simp only [write32]
  split
  · rfl
  · rfl

/-! ### Ranges -/

/-- A word whose bytes are zero is zero. -/
theorem read32_eq_zero {m : Memory} {a : Nat} (h : ∀ x, a ≤ x → x < a + 4 → m x = 0) :
  read32 m a = 0
  := by
  rw [read32, h a (by omega) (by omega), h (a + 1) (by omega) (by omega),
    h (a + 2) (by omega) (by omega), h (a + 3) (by omega) (by omega)]
  decide

/-- A word inside a range filled with zero is zero. -/
theorem read32_fill_zero (m : Memory) {a n b : Nat} (h : a ≤ b) (h' : b + 4 ≤ a + n) :
  read32 (fill m a n 0) b = 0
  := by
  apply read32_eq_zero
  intro x hx hx'
  rw [fill, if_pos (by omega)]

/-- A word outside a filled range is not changed. -/
theorem read32_fill_of_disjoint
    (m : Memory) {a n b : Nat} (v : Byte) (h : a + n ≤ b ∨ b + 4 ≤ a) :
  read32 (fill m a n v) b = read32 m b
  := by
  apply read32_congr
  intro x hx hx'
  rw [fill, if_neg (by omega)]

/-- A word outside a written byte is not changed. -/
theorem read32_write8_of_disjoint (m : Memory) {a b : Nat} (v : Byte) (h : a < b ∨ b + 4 ≤ a) :
  read32 (write8 m a v) b = read32 m b
  := by
  apply read32_congr
  intro x hx hx'
  rw [write8, if_neg (by omega)]

theorem writeBytes_nil (m : Memory) (a : Nat) :
  writeBytes m a [] = m
  := by
  funext x
  simp only [writeBytes, List.length_nil]
  rw [if_neg (by omega)]

/-- Bytes are stored one after the other. -/
theorem writeBytes_cons (m : Memory) (a : Nat) (b : Byte) (bs : List Byte) :
  writeBytes m a (b :: bs) = writeBytes (write8 m a b) (a + 1) bs
  := by
  funext x
  simp only [writeBytes, write8, List.length_cons]
  by_cases hin : a + 1 ≤ x ∧ x < a + 1 + bs.length
  · rw [if_pos (by omega), if_pos hin, show x - a = x - (a + 1) + 1 by omega, List.getD_cons_succ]
  · rw [if_neg hin]
    by_cases hx : x = a
    · rw [if_pos (by omega), if_pos hx, hx, Nat.sub_self, List.getD_cons_zero]
    · rw [if_neg (by omega), if_neg hx]

/-- A byte outside the bytes that are stored is not changed. -/
theorem writeBytes_of_disjoint (m : Memory) {a x : Nat} {bs : List Byte}
    (h : x < a ∨ a + bs.length ≤ x) :
  writeBytes m a bs x = m x
  := by
  rw [writeBytes, if_neg (by omega)]

/-- A stored byte. -/
theorem writeBytes_getElem (m : Memory) (a : Nat) {bs : List Byte} {i : Nat} (hi : i < bs.length) :
  writeBytes m a bs (a + i) = bs[i]
  := by
  rw [writeBytes, if_pos (by omega), Nat.add_sub_cancel_left, List.getD_eq_getElem?_getD,
    List.getElem?_eq_getElem hi, Option.getD_some]

/-- Storing copies of one byte fills the range. -/
theorem writeBytes_replicate (m : Memory) (a n : Nat) (b : Byte) :
  writeBytes m a (List.replicate n b) = fill m a n b
  := by
  funext x
  simp only [writeBytes, fill, List.length_replicate]
  by_cases hx : a ≤ x ∧ x < a + n
  · rw [if_pos hx, if_pos hx, List.getD_eq_getElem?_getD, List.getElem?_replicate,
      if_pos (by omega), Option.getD_some]
  · rw [if_neg hx, if_neg hx]

end Bytes
