import Jos.Fs.View
import Jos.Fs.Tree

/-!
# Writing a file and reading it back

What is written to a file is read back, and other bytes are kept, as long as there are
blocks for the file.  `alloc_block` does not look at the last word of the bitmap when the
number of blocks is not a multiple of 32, so that the blocks whose bits are there do not
count.
-/

namespace Jos.Fs

open Bytes Io

variable {s s' : Cache} {f : Nat} {buf : List Byte} {offset : Word}

/-- The number of blocks of a file of a size. -/
def blockCount (size : Nat) : Nat :=
  (size + BLKSIZE - 1) / BLKSIZE

/-- The size of `f` when `buf` was written at `offset`. -/
def newSize (m : Memory) (f : Nat) (buf : List Byte) (offset : Word) : Nat :=
  max (fileSize m f) (offset.toNat + buf.length)

/-- What was written is read back, and what was not written is kept.  The fields of the
structure of `f` are bytes of the directory that it is in. -/
structure Kept (s s' : Cache) (f : Nat) (buf : List Byte) (offset : Word) : Prop where
  size : fileSize s'.view f = newSize s.view f buf offset
  read : ∀ n off : Word, off.toNat < 2 ^ 31 → ∃ bs s'',
    exec (fileRead f n off) s' = (.ok (BitVec.ofNat 32 bs.length, bs), s'')
      ∧ bs.length = min n.toNat (fileSize s'.view f - off.toNat)
      ∧ ∀ i, i < bs.length → offset.toNat ≤ off.toNat + i →
        off.toNat + i < offset.toNat + buf.length → bs[i]? = buf[off.toNat + i - offset.toNat]?
  own : ∀ p, dataBlock s.view f (p / BLKSIZE) ≠ 0 →
    p < offset.toNat ∨ offset.toNat + buf.length ≤ p → byteAt s'.view f p = byteAt s.view f p
  other : ∀ g, Live s.view g → g ≠ f → ∀ p, dataBlock s.view g (p / BLKSIZE) ≠ 0 →
    ¬ InMeta f (byteAddr s.view g p) → s'.view (byteAddr s.view g p) = byteAt s.view g p
  otherFile : fileType s.view f ≠ FTYPE_DIR → ∀ g, Live s.view g → g ≠ f →
    slot s'.view g = slot s.view g ∧ fileSize s'.view g = fileSize s.view g

/-- `file_write` writes the whole of `buf`, and it can be read back. -/
def RoundTrip (s : Cache) (f : Nat) (buf : List Byte) (offset : Word) : Prop :=
  ∃ s', exec (fileWrite f buf offset) s = (.ok (BitVec.ofNat 32 buf.length), s')
    ∧ Kept s s' f buf offset

theorem blockCount_le {size : Nat} (h : size ≤ MAXFILESIZE) :
  blockCount size ≤ NINDIRECT + NDIRECT
  := by
  simp only [MAXFILESIZE, NINDIRECT, NDIRECT, blockCount, BLKSIZE] at h ⊢
  omega

theorem le_blockCount_mul (size : Nat) :
  size ≤ blockCount size * BLKSIZE
  := by
  simp only [blockCount, BLKSIZE]
  omega

/-- When all blocks of a file exist, none is missing. -/
theorem missing_eq_zero {m : Memory} {size : Nat} (h : Allotted m f 0 size) :
  missing m f (blockCount size) = 0
  := by
  have hdata : ∀ i < blockCount size, dataBlock m f i ≠ 0 := by
    intro i hi
    have hq := h (i * BLKSIZE) (Nat.zero_le _) (by
      simp only [blockCount, BLKSIZE] at hi ⊢
      omega)
    rw [Nat.mul_div_cancel _ (by decide)] at hq
    exact hq
  unfold missing
  rw [Finset.card_eq_zero, Finset.filter_eq_empty_iff]
  intro t ht
  rcases Finset.mem_union.mp ht with ht | ht
  · obtain ⟨i, hi, rfl⟩ := Finset.mem_image.mp ht
    exact hdata i (Finset.mem_range.mp hi)
  · split at ht
    case isTrue hlt =>
      rw [Finset.mem_singleton] at ht
      rw [ht]
      have hlast := hdata (blockCount size - 1) (by omega)
      exact (slot_of_dataBlock hlast).2 (by omega)
    case isFalse => exact absurd ht (Finset.notMem_empty _)

/-- Bytes that are read where `buf` was written are those of `buf`. -/
theorem read_written {m m' : Memory} {n p q k : Nat} (hf : FileOk m f) (hstep : Stepped m m' f n)
    (hall : Allotted m f p (p + buf.length)) (hdata : bytesOf m f p buf.length = buf) {i : Nat}
    (hi : i < k) (hle : p ≤ q + i) (hlt : q + i < p + buf.length) :
  (bytesOf m' f q k)[i]? = buf[q + i - p]?
  := by
  have hbyte := (hstep.wrote hf 0).bytes (q + i) (hall _ hle hlt) (.inr (Nat.zero_le _))
  have hbuf : buf[q + i - p]? = (bytesOf m f p buf.length)[q + i - p]? := by rw [hdata]
  rw [hbuf, bytesOf, bytesOf, List.getElem?_map, List.getElem?_map, List.getElem?_range hi,
    List.getElem?_range (by omega)]
  simp only [Option.map_some]
  rw [hbyte, show p + (q + i - p) = q + i by omega]

/-- What a write that has returned leaves. -/
theorem Written.kept' {n : Nat} (hw : Owned s.view) (hf : Live s.view f) (hs' : Coherent s')
    (hwritten : Written s.view s'.view f n offset.toNat buf) (hn : n ≤ NINDIRECT + NDIRECT)
    (hsize : newSize s.view f buf offset ≤ n * BLKSIZE) (henough : missing s.view f n ≤ avail s.view) :
  Kept s s' f buf offset
  := by
  have hspent := hwritten.spent
  unfold Spent at hspent
  constructor
  case size => exact hwritten.size
  case read =>
    intro k off hoff
    have hsize' : fileSize s'.view f ≤ n * BLKSIZE := by
      rw [hwritten.size]
      exact hsize
    rcases exec_of_ends hs' (ends_fileRead k hwritten.ok hoff hn hsize') with
      ⟨r, s'', heq, -, rfl, hall, hstep⟩ | ⟨-, hfull⟩
    · refine ⟨bytesOf s''.view f off.toNat (readable s'.view f k off), s'', ?_, ?_, ?_⟩
      · rw [heq]
        simp only [bytesOf, List.length_map, List.length_range]
      · simp only [bytesOf, List.length_map, List.length_range]
        rfl
      · intro i hi hle hlt
        simp only [bytesOf, List.length_map, List.length_range] at hi
        exact read_written hwritten.ok hstep hwritten.allotted hwritten.data hi hle hlt
    · omega
  case own => exact hwritten.bytes
  case other =>
    intro g hg hne p hp hmeta
    exact hwritten.moved.other_block hw hf hg hne (owns_slot (s := .data (p / BLKSIZE)) hp)
      (byteAddr_div _ g p) hmeta
  case otherFile =>
    intro hreg g hg hne
    refine ⟨hwritten.moved.other_slot hw hf hg hne hreg, ?_⟩
    apply fileSize_congr
    intro a ha ha'
    obtain ⟨h, h', -⟩ := f_size_inside ha ha'
    exact hwritten.moved.other_struct hw hf hg hne hreg h h'

/-- When there are enough blocks, what is written is read back. -/
theorem roundTrip_of_enough (hs : Coherent s) (hw : Owned s.view) (hf : Live s.view f)
    (hle : offset.toNat + buf.length ≤ MAXFILESIZE)
    (henough : missing s.view f (blockCount (newSize s.view f buf offset)) ≤ avail s.view) :
  RoundTrip s f buf offset
  := by
  have hnew : newSize s.view f buf offset ≤ MAXFILESIZE := by
    have := hw.size f hf
    rw [newSize]
    omega
  have hn := blockCount_le hnew
  have hsize := le_blockCount_mul (newSize s.view f buf offset)
  have hend : offset.toNat + buf.length
      ≤ blockCount (newSize s.view f buf offset) * BLKSIZE :=
    Nat.le_trans (Nat.le_max_right _ _) hsize
  have hends := ends_fileWrite (hw.fileOk hf) hn hend
  rcases exec_of_ends hs hends with ⟨r, s', heq, hs', rfl, hwritten⟩ | ⟨-, hfull⟩
  · exact ⟨s', heq, hwritten.kept' hw hf hs' hn hsize henough⟩
  · omega

/-- When what is written is read back, there have been enough blocks. -/
theorem enough_of_roundTrip (hs : Coherent s) (hw : Owned s.view) (hf : Live s.view f)
    (hle : offset.toNat + buf.length ≤ MAXFILESIZE) (h : RoundTrip s f buf offset) :
  missing s.view f (blockCount (newSize s.view f buf offset)) ≤ avail s.view
  := by
  have hnew : newSize s.view f buf offset ≤ MAXFILESIZE := by
    have := hw.size f hf
    rw [newSize]
    omega
  have hn := blockCount_le hnew
  have hsize := le_blockCount_mul (newSize s.view f buf offset)
  obtain ⟨s', heq, hkept⟩ := h
  have hend : offset.toNat + buf.length
      ≤ blockCount (newSize s.view f buf offset) * BLKSIZE :=
    Nat.le_trans (Nat.le_max_right _ _) hsize
  have hends := ends_fileWrite (hw.fileOk hf) hn hend
  obtain ⟨hs', -, hwritten⟩ := exec_ok_of_ends hs hends heq
  -- the whole file can be read, so that every block of it has got one
  obtain ⟨bs, s'', hread, -⟩ := hkept.read (BitVec.ofNat 32 MAXFILESIZE) 0 (by decide)
  have hzero : BitVec.toNat (0 : Word) < 2 ^ 31 := by decide
  have hends' := ends_fileRead (BitVec.ofNat 32 MAXFILESIZE) hwritten.ok hzero hn
    (by rw [hkept.size]; exact hsize)
  obtain ⟨-, -, hall, hstep⟩ := exec_ok_of_ends hs' hends' hread
  have hzero : missing s''.view f (blockCount (newSize s.view f buf offset)) = 0 := by
    apply missing_eq_zero
    rw [readable, hkept.size] at hall
    have hcount : (BitVec.ofNat 32 MAXFILESIZE).toNat = MAXFILESIZE := by decide
    rw [hcount] at hall
    have hmin : min MAXFILESIZE (newSize s.view f buf offset - (0 : Word).toNat)
        = newSize s.view f buf offset := by
      change min MAXFILESIZE (newSize s.view f buf offset - 0) = _
      omega
    rw [hmin] at hall
    change Allotted _ f 0 (0 + _) at hall
    rw [Nat.zero_add] at hall
    exact hall
  have hspent := hwritten.spent
  have hspent' := hstep.spent
  unfold Spent at hspent hspent'
  omega

/-- A write to a file is read back exactly when `alloc_block` can hand out the blocks that the
file lacks up to its new end. -/
theorem roundTrip_iff (hs : Coherent s) (hw : Owned s.view) (hf : Live s.view f)
    (hle : offset.toNat + buf.length ≤ MAXFILESIZE) :
  RoundTrip s f buf offset
    ↔ missing s.view f (blockCount (newSize s.view f buf offset)) ≤ avail s.view
  := by
  constructor
  · exact enough_of_roundTrip hs hw hf hle
  · exact roundTrip_of_enough hs hw hf hle

/-- A bitmap that marks block 4 as free and all others as in use. -/
def fourthFree : Memory :=
  fun a => if a = 8192 then 16 else 0

/-- For one byte the empty file of the small disk lacks one block. -/
theorem missing_tiny (bits rest : Memory) (v : Byte) :
  missing (tiny bits rest) tinyFile (blockCount (newSize (tiny bits rest) tinyFile [v] 0)) = 1
  := by
  have hcount : blockCount (newSize (tiny bits rest) tinyFile [v] 0) = 1 := by
    rw [newSize, fileSize_tiny_file, List.length_singleton]
    rfl
  rw [hcount]
  unfold missing
  rw [Finset.filter_true_of_mem (fun t _ => slot_tiny_file t)]
  rfl

/-- On a small disk with a free block a byte is written to the empty file, and read back. -/
theorem roundTrip_iff_tiny :
  RoundTrip (Cache.booted (tiny fourthFree (fun _ => 0))) tinyFile [42] 0
  := by
  have havail : 0 < avail (tiny fourthFree (fun _ => 0)) := by
    apply Finset.card_pos.mpr
    use 4
    rw [Finset.mem_filter, scanned, nblocks_tiny]
    decide
  apply (roundTrip_iff (coherent_booted _) _ _ (by decide)).mpr
  · rw [view_booted, missing_tiny]
    exact havail
  · rw [view_booted]
    apply owned_tiny
    decide
  · rw [view_booted, live_tiny]
    exact .inr rfl

/-- The number of free blocks. -/
def freeBlocks (m : Memory) : Nat :=
  ((Finset.range (nblocks m)).filter (fun b => isFree m b = true)).card

/-- A bitmap that marks block 34 as free and all others as in use. -/
def lastFree : Memory :=
  fun a => if a = 8196 then 4 else 0

/-- On a disk whose only free block has its bit in the last word of the bitmap, a file that
lacks one block can not be written. -/
theorem not_roundTrip :
  ¬ (∀ s f buf offset, Coherent s → Owned s.view → Live s.view f →
    offset.toNat + buf.length ≤ MAXFILESIZE →
    missing s.view f (blockCount (newSize s.view f buf offset)) ≤ freeBlocks s.view →
    RoundTrip s f buf offset)
  := by
  intro h
  have hs := coherent_booted (tiny lastFree (fun _ => 0))
  have hw : Owned (tiny lastFree (fun _ => 0)) := by
    apply owned_tiny
    decide
  have hf : Live (tiny lastFree (fun _ => 0)) tinyFile := live_tiny.mpr (.inr rfl)
  have hle : (0 : Word).toNat + [0#8].length ≤ MAXFILESIZE := by decide
  have hlack := missing_tiny lastFree (fun _ => 0) 0#8
  have hfree : 1 ≤ freeBlocks (tiny lastFree (fun _ => 0)) := by
    apply Finset.card_pos.mpr
    use 34
    rw [Finset.mem_filter, nblocks_tiny]
    decide
  have havail : avail (tiny lastFree (fun _ => 0)) = 0 := by
    apply avail_eq_zero
    rw [scanned, nblocks_tiny]
    decide
  rw [← view_booted (tiny lastFree (fun _ => 0))] at hw hf hlack hfree havail
  have hround := h _ _ _ _ hs hw hf hle (by rw [hlack]; exact hfree)
  have henough := enough_of_roundTrip hs hw hf hle hround
  rw [hlack, havail] at henough
  exact absurd henough (by decide)

end Jos.Fs
