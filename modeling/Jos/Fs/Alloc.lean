import Jos.Fs.File
import Mathlib.Data.Finset.Card
import Mathlib.Order.Interval.Finset.Nat

/-!
# The bitmap

Block `b` is free when its bit in the bitmap is set.  `alloc_block` takes the first free
block whose bit is not in an incomplete last word of the bitmap, and `free_block` gives a
block back; neither changes anything else.
-/

namespace Jos.Fs

open Bytes Io

variable {m m' : Memory} {a b c : Nat}

/-! ### Bits -/

/-- A mask with one bit tests this bit. -/
theorem and_one_shiftLeft_ne_zero (w : Word) {j : Nat} (hj : j < 32) :
  (w &&& 1#32 <<< j != 0) = w.getLsbD j
  := by
  rw [← BitVec.twoPow_eq, BitVec.and_twoPow]
  cases h : w.getLsbD j with
  | false => rfl
  | true =>
      rw [if_pos rfl, bne_iff_ne]
      intro heq
      have hbit := congrArg (BitVec.getLsbD · j) heq
      simp [hj] at hbit

/-- A block is free when its bit is set. -/
theorem isFree_eq (m : Memory) (b : Nat) :
  isFree m b = (decide (b < nblocks m) && (read32 m (bitmapWord b)).getLsbD (b % 32))
  := by
  rw [isFree, bitmapMask, and_one_shiftLeft_ne_zero _ (Nat.mod_lt _ (by decide))]

theorem lt_of_isFree (h : isFree m b = true) :
  b < nblocks m
  := by
  rw [isFree, Bool.and_eq_true, decide_eq_true_eq] at h
  exact h.1

/-- The bits of two blocks are the same bit of one word, different bits of one word, or bits of
disjoint words. -/
theorem bitmapWord_cases (b c : Nat) :
  c = b ∨ (bitmapWord c = bitmapWord b ∧ c % 32 ≠ b % 32)
    ∨ (bitmapWord b + 4 ≤ bitmapWord c ∨ bitmapWord c + 4 ≤ bitmapWord b)
  := by
  simp only [bitmapWord]
  omega

/-! ### Taking and giving blocks -/

/-- Clear the bit of block `b`. -/
def takeBlock (m : Memory) (b : Nat) : Memory :=
  write32 m (bitmapWord b) (read32 m (bitmapWord b) &&& ~~~ bitmapMask b)

/-- Set the bit of block `b`. -/
def giveBlock (m : Memory) (b : Nat) : Memory :=
  write32 m (bitmapWord b) (read32 m (bitmapWord b) ||| bitmapMask b)

/-- The number of blocks depends on the super block only. -/
theorem nblocks_congr (h : ∀ x, s_nblocks ≤ x → x < s_nblocks + 4 → m' x = m x) :
  nblocks m' = nblocks m
  := by
  rw [nblocks, nblocks, read32_congr h]

@[simp]
theorem nblocks_takeBlock (m : Memory) (b : Nat) :
  nblocks (takeBlock m b) = nblocks m
  := by
  apply nblocks_congr
  intro x _ hx'
  apply write32_of_disjoint
  simp only [s_nblocks, super, bitmapWord, bitmap, BLKSIZE] at hx' ⊢
  omega

@[simp]
theorem nblocks_giveBlock (m : Memory) (b : Nat) :
  nblocks (giveBlock m b) = nblocks m
  := by
  apply nblocks_congr
  intro x _ hx'
  apply write32_of_disjoint
  simp only [s_nblocks, super, bitmapWord, bitmap, BLKSIZE] at hx' ⊢
  omega

theorem isFree_takeBlock (m : Memory) (b c : Nat) :
  isFree (takeBlock m b) c = (isFree m c && c != b)
  := by
  have hlt : ∀ n, n % 32 < 32 := fun n => Nat.mod_lt n (by decide)
  rw [isFree_eq, isFree_eq, nblocks_takeBlock, takeBlock, Bool.and_assoc]
  congr 1
  rcases bitmapWord_cases b c with rfl | ⟨hw, hbit⟩ | hw
  · rw [read32_write32, BitVec.getLsbD_and, BitVec.getLsbD_not, bitmapMask, ← BitVec.twoPow_eq,
      BitVec.getLsbD_twoPow]
    simp [hlt]
  · have hne : c ≠ b := fun h => hbit (by rw [h])
    rw [hw, read32_write32, BitVec.getLsbD_and, BitVec.getLsbD_not, bitmapMask,
      ← BitVec.twoPow_eq, BitVec.getLsbD_twoPow]
    simp [hlt, hne, hbit.symm]
  · have hne : c ≠ b := by
      rintro rfl
      omega
    rw [read32_write32_of_disjoint _ _ hw]
    simp [hne]

theorem isFree_giveBlock (hb : b < nblocks m) (c : Nat) :
  isFree (giveBlock m b) c = (isFree m c || c == b)
  := by
  have hlt : ∀ n, n % 32 < 32 := fun n => Nat.mod_lt n (by decide)
  rw [isFree_eq, isFree_eq, nblocks_giveBlock, giveBlock]
  rcases bitmapWord_cases b c with rfl | ⟨hw, hbit⟩ | hw
  · rw [read32_write32, BitVec.getLsbD_or, bitmapMask, ← BitVec.twoPow_eq, BitVec.getLsbD_twoPow]
    simp [hlt, hb]
  · have hne : c ≠ b := fun h => hbit (by rw [h])
    rw [hw, read32_write32, BitVec.getLsbD_or, bitmapMask, ← BitVec.twoPow_eq,
      BitVec.getLsbD_twoPow]
    simp [hne, hbit.symm]
  · have hne : c ≠ b := by
      rintro rfl
      omega
    rw [read32_write32_of_disjoint _ _ hw]
    simp [hne]

/-! ### The blocks of the bitmap -/

/-- The number of blocks that the bitmap takes. -/
def nbitblocks (m : Memory) : Nat :=
  (nblocks m + BLKBITSIZE - 1) / BLKBITSIZE

/-- Block 0, the super block, or a block of the bitmap. -/
def Reserved (m : Memory) (b : Nat) : Prop :=
  b < 2 + nbitblocks m

instance (m : Memory) (b : Nat) : Decidable (Reserved m b) :=
  inferInstanceAs (Decidable (_ < _))

/-- An address in a block of the bitmap. -/
def InBitmap (m : Memory) (a : Nat) : Prop :=
  2 ≤ a / BLKSIZE ∧ Reserved m (a / BLKSIZE)

/-- The disk has a size that the server accepts, and the bitmap marks the blocks in use that
are never allocated. -/
structure BitmapOk (m : Memory) : Prop where
  small : nblocks m ≤ DISKSIZE / BLKSIZE
  large : 2 < nblocks m
  reserved : ∀ b, Reserved m b → isFree m b = false

/-- The reserved blocks exist. -/
theorem BitmapOk.reserved_lt (hm : BitmapOk m) (hb : Reserved m b) :
  b < nblocks m
  := by
  have hlarge := hm.large
  simp only [Reserved, nbitblocks, BLKBITSIZE, BLKSIZE] at hb
  omega

/-- The bit of an existing block is in the bitmap. -/
theorem reserved_of_lt (hb : b < nblocks m) :
  Reserved m (2 + b / BLKBITSIZE)
  := by
  simp only [Reserved, nbitblocks, BLKBITSIZE, BLKSIZE]
  omega

theorem bitmapWord_div' {x : Nat} (hx : bitmapWord b ≤ x) (hx' : x < bitmapWord b + 4) :
  x / BLKSIZE = 2 + b / BLKBITSIZE
  := by
  simp only [bitmapWord, bitmap, BLKSIZE, BLKBITSIZE] at hx hx' ⊢
  omega

theorem inBitmap_bitmapWord (hb : b < nblocks m) (hx : bitmapWord b ≤ a)
    (hx' : a < bitmapWord b + 4) :
  InBitmap m a
  := by
  unfold InBitmap
  rw [bitmapWord_div' hx hx']
  exact ⟨Nat.le_add_right _ _, reserved_of_lt hb⟩

/-- Taking a block changes the bitmap only. -/
theorem takeBlock_frame (hb : b < nblocks m) (ha : ¬ InBitmap m a) :
  takeBlock m b a = m a
  := by
  unfold takeBlock
  rw [write32, if_neg]
  intro h
  exact ha (inBitmap_bitmapWord hb h.1 h.2)

/-- Giving a block changes the bitmap only. -/
theorem giveBlock_frame (hb : b < nblocks m) (ha : ¬ InBitmap m a) :
  giveBlock m b a = m a
  := by
  unfold giveBlock
  rw [write32, if_neg]
  intro h
  exact ha (inBitmap_bitmapWord hb h.1 h.2)

/-- The number of blocks and the bitmap are the same. -/
structure SameBitmap (m m' : Memory) : Prop where
  super : ∀ a, s_nblocks ≤ a → a < s_nblocks + 4 → m' a = m a
  bitmap : ∀ a, InBitmap m a → m' a = m a

theorem SameBitmap.nblocks (h : SameBitmap m m') :
  nblocks m' = nblocks m
  := nblocks_congr h.super

theorem Reserved.congr (h : nblocks m' = nblocks m) :
  Reserved m' b ↔ Reserved m b
  := by
  rw [Reserved, Reserved, nbitblocks, nbitblocks, h]

theorem InBitmap.congr (h : nblocks m' = nblocks m) :
  InBitmap m' a ↔ InBitmap m a
  := by
  rw [InBitmap, InBitmap, Reserved.congr h]

theorem SameBitmap.trans {m'' : Memory} (h : SameBitmap m m') (h' : SameBitmap m' m'') :
  SameBitmap m m''
  where
  super a ha ha' := (h'.super a ha ha').trans (h.super a ha ha')
  bitmap a ha := by
    rw [h'.bitmap a ((InBitmap.congr h.nblocks).mpr ha), h.bitmap a ha]

/-- Which blocks are free depends on the super block and the bitmap only. -/
theorem SameBitmap.isFree (h : SameBitmap m m') (b : Nat) :
  isFree m' b = isFree m b
  := by
  rw [Fs.isFree, Fs.isFree, h.nblocks]
  rcases Nat.lt_or_ge b (Fs.nblocks m) with hb | hb
  · rw [read32_congr]
    intro x hx hx'
    exact h.bitmap x (inBitmap_bitmapWord hb hx hx')
  · rw [decide_eq_false (Nat.not_lt.mpr hb), Bool.false_and, Bool.false_and]

/-! ### Valid addresses -/

/-- The addresses in a block that is in use are valid. -/
theorem BitmapOk.valid (hm : BitmapOk m) (hlt : a / BLKSIZE < nblocks m)
    (huse : isFree m (a / BLKSIZE) = false) :
  valid m a = true
  := by
  have hres := reserved_of_lt hlt
  have hsmall := hm.small
  simp only [Fs.valid, inUse, Bool.and_eq_true, decide_eq_true_eq, Bool.not_eq_true']
  refine ⟨⟨?_, hlt, huse⟩, hm.reserved_lt hres, hm.reserved _ hres⟩
  simp only [DISKSIZE, BLKSIZE] at hsmall hlt ⊢
  omega

/-- A word that lies in one block in use is valid. -/
theorem BitmapOk.okWord (hm : BitmapOk m) (hlt : a / BLKSIZE < nblocks m)
    (huse : isFree m (a / BLKSIZE) = false) (hin : a % BLKSIZE + 4 ≤ BLKSIZE) :
  okWord Fs.valid m a = true
  := by
  have heq : (a + 3) / BLKSIZE = a / BLKSIZE := by
    simp only [BLKSIZE] at hin ⊢
    omega
  simp only [Io.okWord, Bool.and_eq_true]
  constructor
  · exact hm.valid hlt huse
  · apply hm.valid
    · rw [heq]
      exact hlt
    · rw [heq]
      exact huse

/-- The words of the super block and the bitmap are valid. -/
theorem BitmapOk.okWord_reserved (hm : BitmapOk m) (hres : Reserved m (a / BLKSIZE))
    (hin : a % BLKSIZE + 4 ≤ BLKSIZE) :
  Io.okWord Fs.valid m a = true
  := hm.okWord (hm.reserved_lt hres) (hm.reserved _ hres) hin

theorem BitmapOk.okWord_s_nblocks (hm : BitmapOk m) :
  Io.okWord Fs.valid m s_nblocks = true
  := by
  apply hm.okWord_reserved
  · change 1 < 2 + nbitblocks m
    omega
  · decide

theorem BitmapOk.okWord_bitmapWord (hm : BitmapOk m) (hb : b < nblocks m) :
  Io.okWord Fs.valid m (bitmapWord b) = true
  := by
  apply hm.okWord_reserved
  · rw [bitmapWord_div' (Nat.le_refl _) (by omega)]
    exact reserved_of_lt hb
  · simp only [bitmapWord, bitmap, BLKSIZE]
    omega

/-- The bitmap is still good when it was not changed. -/
theorem SameBitmap.bitmapOk (h : SameBitmap m m') (hm : BitmapOk m) :
  BitmapOk m'
  where
  small := by rw [h.nblocks]; exact hm.small
  large := by rw [h.nblocks]; exact hm.large
  reserved b hb := by
    rw [Reserved.congr h.nblocks] at hb
    rw [h.isFree, hm.reserved b hb]

/-- The bitmap is still good when a block was taken. -/
theorem BitmapOk.takeBlock (hm : BitmapOk m) (b : Nat) :
  BitmapOk (takeBlock m b)
  where
  small := by rw [nblocks_takeBlock]; exact hm.small
  large := by rw [nblocks_takeBlock]; exact hm.large
  reserved c hc := by
    rw [isFree_takeBlock, hm.reserved c]
    · rfl
    · rw [Reserved, nbitblocks, nblocks_takeBlock] at hc
      exact hc

/-- The bitmap is still good when a block that is not reserved was given back. -/
theorem BitmapOk.giveBlock (hm : BitmapOk m) (hlt : b < nblocks m) (hb : ¬ Reserved m b) :
  BitmapOk (giveBlock m b)
  where
  small := by rw [nblocks_giveBlock]; exact hm.small
  large := by rw [nblocks_giveBlock]; exact hm.large
  reserved c hc := by
    rw [Reserved, nbitblocks, nblocks_giveBlock] at hc
    have hne : c ≠ b := by
      rintro rfl
      exact hb hc
    rw [isFree_giveBlock hlt, hm.reserved c hc]
    simp [hne]

/-- What can be accessed is decided by the super block and the bitmap. -/
theorem SameBitmap.okWord (h : SameBitmap m m') (a : Nat) :
  Io.okWord valid m' a = Io.okWord valid m a
  := by
  simp only [Io.okWord, valid, inUse, h.nblocks, h.isFree]

/-- What can be accessed can still be accessed when a block was taken. -/
theorem okWord_takeBlock (h : Io.okWord valid m a = true) (b : Nat) :
  Io.okWord valid (takeBlock m b) a = true
  := by
  have huse : ∀ c, inUse m c = true → inUse (takeBlock m b) c = true := by
    intro c hc
    simp only [inUse, nblocks_takeBlock, isFree_takeBlock, Bool.and_eq_true,
      Bool.not_eq_true'] at hc ⊢
    rw [hc.2]
    exact ⟨hc.1, rfl⟩
  simp only [Io.okWord, valid, Bool.and_eq_true] at h ⊢
  obtain ⟨⟨⟨h1, h2⟩, h3⟩, ⟨h4, h5⟩, h6⟩ := h
  exact ⟨⟨⟨h1, huse _ h2⟩, huse _ h3⟩, ⟨h4, huse _ h5⟩, huse _ h6⟩

/-! ### Functions of the bitmap -/

/-- `diskaddr` gives the address of an existing block. -/
theorem ends_diskaddr {Q : Nat → Memory → Prop} {E : Prop} {blockno : Word} (hm : BitmapOk m)
    (hQ : blockno ≠ 0 → blockno.toNat < nblocks m → Q (blockno.toNat * BLKSIZE) m)
    (hE : blockno = 0 ∨ nblocks m ≤ blockno.toNat → E) :
  (diskaddr blockno).Ends valid m Q E
  := by
  unfold diskaddr
  rw [ends_ite]
  constructor
  · intro h
    rw [ends_panic]
    exact hE (.inl h)
  · intro hne
    rw [ends_bind, ends_get32, ends_ite]
    refine ⟨hm.okWord_s_nblocks, ?_, ?_⟩
    · intro h
      rw [ends_panic]
      exact hE (.inr h)
    · intro h
      rw [ends_pure]
      exact hQ hne (Nat.lt_of_not_le h)

/-- `free_block` gives the block back. -/
theorem ends_freeBlock {Q : Unit → Memory → Prop} {E : Prop} {blockno : Word} (hm : BitmapOk m)
    (hne : blockno ≠ 0) (hlt : blockno.toNat < nblocks m) (hQ : Q () (giveBlock m blockno.toNat)) :
  (freeBlock blockno).Ends valid m Q E
  := by
  unfold freeBlock
  rw [if_neg hne, ends_bind, ends_get32, ends_set32]
  exact ⟨hm.okWord_bitmapWord hlt, hm.okWord_bitmapWord hlt, hQ⟩

/-! ### Allocating a block -/

/-- The blocks that `alloc_block` looks at. -/
def scanned (m : Memory) : Nat :=
  32 * (nblocks m / 32)

/-- The number of blocks that `alloc_block` can hand out. -/
def avail (m : Memory) : Nat :=
  ((Finset.range (scanned m)).filter (fun b => isFree m b = true)).card

/-- There is one block less to hand out when one was taken. -/
theorem avail_takeBlock (hb : b < scanned m) (hfree : isFree m b = true) :
  avail (takeBlock m b) + 1 = avail m
  := by
  unfold avail
  have heq : (Finset.range (scanned m)).filter (fun c => isFree (takeBlock m b) c = true)
      = ((Finset.range (scanned m)).filter (fun c => isFree m c = true)).erase b := by
    ext c
    rw [Finset.mem_filter, isFree_takeBlock, Finset.mem_erase, Finset.mem_filter]
    simp only [Bool.and_eq_true, bne_iff_ne, ne_eq]
    tauto
  rw [scanned, nblocks_takeBlock, ← scanned, heq]
  apply Finset.card_erase_add_one
  rw [Finset.mem_filter, Finset.mem_range]
  exact ⟨hb, hfree⟩

/-- How many blocks there are to hand out depends on the super block and the bitmap only. -/
theorem SameBitmap.avail (h : SameBitmap m m') :
  avail m' = avail m
  := by
  unfold Fs.avail scanned
  rw [h.nblocks]
  congr 1
  apply Finset.filter_congr
  intro b _
  rw [h.isFree]

theorem avail_eq_zero (h : ∀ b < scanned m, isFree m b = false) :
  avail m = 0
  := by
  unfold avail
  rw [Finset.card_eq_zero, Finset.filter_eq_empty_iff]
  intro b hb
  rw [h b (Finset.mem_range.mp hb)]
  exact Bool.false_ne_true

/-- A block was found, and it is the first free one. -/
def Found (m : Memory) (r : Word) (m' : Memory) : Prop :=
  r.toNat < scanned m ∧ isFree m r.toNat = true ∧ (∀ c < r.toNat, isFree m c = false)
    ∧ m' = takeBlock m r.toNat

/-- What `alloc_block` returns and leaves: the first free block is taken, or there is none. -/
def Allocated (m : Memory) (r : Word) (m' : Memory) : Prop :=
  Found m r m' ∨ (r = -E_NO_DISK ∧ (∀ c < scanned m, isFree m c = false) ∧ m' = m)

theorem or_eq_add {i j : Nat} (hj : j < 32) :
  i * 32 ||| j = 32 * i + j
  := by
  rw [Nat.mul_comm, ← Nat.two_pow_add_eq_or_of_lt (i := 5) hj]

/-- The bit that the loops of `alloc_block` look at is the bit of block `32 * i + j`. -/
theorem ends_allocBit {Q : Option Word → Memory → Prop} {E : Prop} {i j : Nat} (hm : BitmapOk m)
    (hj : j < 32) (hlt : 32 * i + j < nblocks m)
    (htake : isFree m (32 * i + j) = true →
      Q (some (BitVec.ofNat 32 (32 * i + j))) (takeBlock m (32 * i + j)))
    (hskip : isFree m (32 * i + j) = false → Q none m) :
  (allocBit i j).Ends valid m Q E
  := by
  have hword : bitmap + 4 * i = bitmapWord (32 * i + j) := by
    rw [bitmapWord]
    omega
  have hmask : 1#32 <<< j = bitmapMask (32 * i + j) := by
    rw [bitmapMask, Nat.mul_add_mod, Nat.mod_eq_of_lt hj]
  have hsmall := hm.small
  unfold allocBit
  rw [or_eq_add hj, hword, hmask, ends_bind, ends_get32, ends_ite]
  refine ⟨hm.okWord_bitmapWord hlt, ?_, ?_⟩
  · intro hbit
    have hm' := hm.takeBlock (32 * i + j)
    have hblock : (BitVec.ofNat 32 ((32 * i + j) / BLKBITSIZE + 2)).toNat
        = 2 + (32 * i + j) / BLKBITSIZE := by
      rw [BitVec.toNat_ofNat]
      simp only [DISKSIZE, BLKSIZE, BLKBITSIZE] at hsmall ⊢
      omega
    have hres := reserved_of_lt hlt
    rw [ends_bind, ends_set32]
    refine ⟨hm.okWord_bitmapWord hlt, ?_⟩
    change Ends valid _ (takeBlock m (32 * i + j)) _ _
    rw [ends_bind]
    apply ends_diskaddr hm'
    · intro _ _
      rw [ends_bind, flushBlock, ends_sync, ends_pure, hblock]
      refine ⟨?_, htake (by simpa [isFree, hlt] using hbit)⟩
      have hres' : Reserved (takeBlock m (32 * i + j)) (2 + (32 * i + j) / BLKBITSIZE) := by
        rw [Reserved, nbitblocks, nblocks_takeBlock]
        exact hres
      apply hm'.valid
      · rw [Nat.mul_div_cancel _ (by decide)]
        exact hm'.reserved_lt hres'
      · rw [Nat.mul_div_cancel _ (by decide)]
        exact hm'.reserved _ hres'
    · rw [hblock, nblocks_takeBlock]
      rintro (h | h)
      · have hzero := congrArg BitVec.toNat h
        rw [hblock] at hzero
        simp at hzero
      · have := hm.reserved_lt hres
        omega
  · intro hbit
    rw [ends_pure]
    apply hskip
    rw [isFree, Decidable.not_not.mp hbit]
    simp

/-- The inner loop of `alloc_block` looks at the bits of one word. -/
theorem ends_allocWord {E : Prop} {i : Nat} (hm : BitmapOk m) (hi : i < nblocks m / 32)
    (hbefore : ∀ c < 32 * i, isFree m c = false) :
  (findUp 0 32 (fun j => allocBit i j)).Ends valid m
    (fun r m' => (r = none → m' = m ∧ ∀ c < 32 * i + (0 + 32), isFree m c = false)
      ∧ ∀ b, r = some b → Found m b m') E
  := by
  have hsmall := hm.small
  -- before bit `j`, no block was found free
  apply ends_findUp (fun j m' => m' = m ∧ ∀ c < 32 * i + j, isFree m c = false) (Found m)
  · rintro j m₁ - hj ⟨rfl, hnone⟩
    rw [Nat.zero_add] at hj
    have hlt : 32 * i + j < scanned m₁ := by
      rw [scanned]
      omega
    have hscan : scanned m₁ ≤ nblocks m₁ := by
      rw [scanned]
      omega
    apply ends_allocBit hm hj (Nat.lt_of_lt_of_le hlt hscan)
    · intro hfree
      refine ⟨by rintro ⟨⟩, ?_⟩
      rintro b hb
      cases hb
      have htoNat : (BitVec.ofNat 32 (32 * i + j)).toNat = 32 * i + j := by
        rw [BitVec.toNat_ofNat]
        simp only [DISKSIZE, BLKSIZE] at hsmall
        omega
      rw [Found, htoNat]
      exact ⟨hlt, hfree, hnone, rfl⟩
    · intro hfree
      refine ⟨?_, by rintro b ⟨⟩⟩
      rintro -
      refine ⟨rfl, ?_⟩
      intro c hc
      rcases Nat.lt_or_eq_of_le (Nat.le_of_lt_succ hc) with hc | rfl
      · exact hnone c hc
      · exact hfree
  · exact ⟨rfl, hbefore⟩

theorem ends_allocBlock {E : Prop} (hm : BitmapOk m) :
  allocBlock.Ends valid m (Allocated m) E
  := by
  have hloop : (findUp 0 (nblocks m / 32) (fun i => findUp 0 32 (fun j => allocBit i j))).Ends
      valid m (fun r m' => (r = none → m' = m ∧ ∀ c < 32 * (0 + nblocks m / 32), isFree m c = false)
        ∧ ∀ b, r = some b → Found m b m') E := by
    -- before word `i`, no block was found free
    apply ends_findUp (fun i m' => m' = m ∧ ∀ c < 32 * i, isFree m c = false) (Found m)
    · rintro i m₁ - hi ⟨rfl, hbefore⟩
      rw [Nat.zero_add] at hi
      exact ends_allocWord hm hi hbefore
    · exact ⟨rfl, fun c hc => absurd hc (by omega)⟩
  unfold allocBlock
  rw [ends_bind, ends_get32]
  refine ⟨hm.okWord_s_nblocks, ?_⟩
  rw [ends_bind]
  apply hloop.mono _ id
  intro r m' h
  rw [ends_pure]
  cases r with
  | none =>
      right
      obtain ⟨rfl, hnone⟩ := h.1 rfl
      rw [Nat.zero_add] at hnone
      exact ⟨rfl, hnone, rfl⟩
  | some b => exact .inl (h.2 b rfl)

end Jos.Fs
