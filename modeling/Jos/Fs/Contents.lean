import Jos.Fs.GetBlock

/-!
# The bytes of a file

`file_read` returns the bytes of a file, and `file_write` replaces them, block by block.
Both allocate the blocks that are missing on the way.
-/

namespace Jos.Fs

open Bytes Io

variable {m m' m'' : Memory} {f i b n : Nat} {E : Prop}

/-! ### Positions -/

theorem sdiv_BLKSIZE {pos : Word} (h : pos.toNat < 2 ^ 31) :
  (pos.sdiv (BitVec.ofNat 32 BLKSIZE)).toNat = pos.toNat / BLKSIZE
  := by
  have hpos : pos.msb = false := by
    rw [BitVec.msb_eq_false_iff_two_mul_lt]
    omega
  have hblk : (BitVec.ofNat 32 BLKSIZE).msb = false := by decide
  rw [BitVec.sdiv_eq, hpos, hblk]
  rfl

theorem srem_BLKSIZE {pos : Word} (h : pos.toNat < 2 ^ 31) :
  pos.srem (BitVec.ofNat 32 BLKSIZE) = BitVec.ofNat 32 (pos.toNat % BLKSIZE)
  := by
  have hpos : pos.msb = false := by
    rw [BitVec.msb_eq_false_iff_two_mul_lt]
    omega
  have hblk : (BitVec.ofNat 32 BLKSIZE).msb = false := by decide
  rw [BitVec.srem_eq, hpos, hblk]
  apply BitVec.eq_of_toNat_eq
  simp only [BitVec.toNat_umod, BitVec.toNat_ofNat, BLKSIZE, Nat.reducePow, Nat.reduceMod]
  omega

/-- The address of a position in a block. -/
theorem within_eq {blk : Nat} {pos : Word} (h : pos.toNat < 2 ^ 31) :
  within blk pos = blk + pos.toNat % BLKSIZE
  := by
  rw [within, srem_BLKSIZE h, BitVec.toInt_eq_toNat_of_lt]
  · simp only [BitVec.toNat_ofNat, BLKSIZE]
    omega
  · simp only [BitVec.toNat_ofNat, BLKSIZE]
    omega

/-- The bytes accessed at a time end with the block or with the range. -/
theorem chunk_toNat {pos stop : Word} (h : pos.toNat ≤ stop.toNat) (hstop : stop.toNat < 2 ^ 31) :
  (chunk pos stop).toNat = min (BLKSIZE - pos.toNat % BLKSIZE) (stop.toNat - pos.toNat)
  := by
  have hleft : (BitVec.ofNat 32 BLKSIZE - pos.srem (BitVec.ofNat 32 BLKSIZE)).toNat
      = BLKSIZE - pos.toNat % BLKSIZE := by
    rw [srem_BLKSIZE (by omega), BitVec.toNat_sub]
    simp only [BLKSIZE, BitVec.toNat_ofNat]
    omega
  have hright : (stop - pos).toNat = stop.toNat - pos.toNat := by
    rw [BitVec.toNat_sub]
    omega
  rw [chunk, minU]
  split
  case isTrue hle =>
    rw [BitVec.le_def, hleft, hright] at hle
    rw [hleft]
    omega
  case isFalse hgt =>
    rw [BitVec.le_def, hleft, hright] at hgt
    rw [hright]
    omega

/-- The size of a file. -/
def fileSize (m : Memory) (f : Nat) : Nat :=
  (read32 m (f_size f)).toNat

/-- Where position `p` of a file lies. -/
def byteAddr (m : Memory) (f p : Nat) : Nat :=
  dataBlock m f (p / BLKSIZE) * BLKSIZE + p % BLKSIZE

/-- The byte at position `p` of a file. -/
def byteAt (m : Memory) (f p : Nat) : Byte :=
  m (byteAddr m f p)

theorem byteAddr_div (m : Memory) (f p : Nat) :
  byteAddr m f p / BLKSIZE = dataBlock m f (p / BLKSIZE)
  := by
  simp only [byteAddr, BLKSIZE]
  omega

/-- The size depends on the structure only. -/
theorem fileSize_congr (h : ∀ a, f_size f ≤ a → a < f_size f + 4 → m' a = m a) :
  fileSize m' f = fileSize m f
  := by
  rw [fileSize, fileSize, read32_congr h]

/-- The `k` bytes of a file from position `p` on. -/
def bytesOf (m : Memory) (f p k : Nat) : List Byte :=
  (List.range k).map (fun i => byteAt m f (p + i))

theorem bytesOf_append (m : Memory) (f p j k : Nat) :
  bytesOf m f p (j + k) = bytesOf m f p j ++ bytesOf m f (p + j) k
  := by
  unfold bytesOf
  rw [List.range_add, List.map_append, List.map_map]
  apply congrArg
  apply List.map_congr_left
  intro i _
  rw [Function.comp_apply, Nat.add_assoc]

theorem append_bytesOf_zero {buf : List Byte} {p k : Nat} (hk : k = 0) :
  buf ++ bytesOf m f p k = buf
  := by
  rw [hk, bytesOf, List.range_zero, List.map_nil, List.append_nil]

/-- The blocks with the positions from `p` to `stop` exist. -/
def Allotted (m : Memory) (f p stop : Nat) : Prop :=
  ∀ q, p ≤ q → q < stop → dataBlock m f (q / BLKSIZE) ≠ 0

/-! ### Changes of the contents -/

/-- A change of `f` that fills slots of the first `n` blocks, and changes the bytes of the file
from `lo` to `hi` only. -/
structure Wrote (m m' : Memory) (f n lo hi : Nat) : Prop where
  ok : FileOk m' f
  moved : Moved m m' f
  kept : ∀ s, slot m f s ≠ 0 → slot m' f s = slot m f s
  spent : Spent m m' f n
  within : ∀ s, slot m' f s ≠ 0 → slot m f s ≠ 0 ∨ s ∈ needs n
  size : fileSize m' f = fileSize m f
  bytes : ∀ p, dataBlock m f (p / BLKSIZE) ≠ 0 → p < lo ∨ hi ≤ p → byteAt m' f p = byteAt m f p

/-- The position of a byte is kept with its block. -/
theorem byteAddr_kept {p : Nat} (hkept : ∀ s, slot m f s ≠ 0 → slot m' f s = slot m f s)
    (hne : dataBlock m f (p / BLKSIZE) ≠ 0) :
  byteAddr m' f p = byteAddr m f p
  := by
  have h := hkept (.data (p / BLKSIZE)) hne
  simp only [slot] at h
  rw [byteAddr, byteAddr, h]

/-- Stepping through a file does not change its contents. -/
theorem Stepped.wrote (h : Stepped m m' f n) (hf : FileOk m f) (p : Nat) :
  Wrote m m' f n p p
  where
  ok := h.ok
  moved := h.grown.moved
  kept := h.grown.kept
  spent := h.spent
  within := h.within
  size := by
    have hin : ∀ a, f_size f ≤ a → a < f_size f + 4 → f ≤ a ∧ a < f + FILESIZE := by
      intro a ha ha'
      simp only [f_size, FILESIZE] at ha ha' ⊢
      omega
    apply fileSize_congr
    intro a ha ha'
    apply h.grown.same a
    · exact hf.not_inBitmap (hin a ha ha').1 (hin a ha ha').2
    · simp only [InSlots, f_size, f_direct] at ha ha' ⊢
      omega
    · intro hne
      rw [hf.placed.home (hin a ha ha').1 (hin a ha ha').2]
      exact (h.ok.ne_home hne).symm
  bytes p hne _ := by
    have hkept := h.grown.kept (.data (p / BLKSIZE)) hne
    have hown := owns_slot (s := .data (p / BLKSIZE)) hne
    rw [byteAt, byteAddr_kept h.grown.kept hne]
    apply h.grown.same
    · exact hf.owned_not_inBitmap hown (byteAddr_div m f p)
    · intro hs
      apply hf.off_home _ hown
      rw [← hf.placed.home hs.inside.1 hs.inside.2, byteAddr_div]
      rfl
    · intro hi heq
      rw [byteAddr_div] at heq
      have := h.ok.inj .indirect (.data (p / BLKSIZE)) hi (heq.symm.trans hkept.symm)
      cases this

theorem Wrote.trans {lo mid hi : Nat} (h : Wrote m m' f n lo mid) (h' : Wrote m' m'' f n mid hi)
    (hlo : lo ≤ mid) (hhi : mid ≤ hi) :
  Wrote m m'' f n lo hi
  where
  ok := h'.ok
  moved := h.moved.trans h'.moved
  kept s hs := by
    have hk := h.kept s hs
    rw [h'.kept s (by rw [hk]; exact hs), hk]
  spent := h.spent.trans h'.spent
  within s hs := by
    rcases h'.within s hs with hs | hs
    · exact h.within s hs
    · exact .inr hs
  size := h'.size.trans h.size
  bytes p hne hp := by
    have hne' : dataBlock m' f (p / BLKSIZE) ≠ 0 := by
      have hk := h.kept (.data (p / BLKSIZE)) hne
      exact hk.trans_ne hne
    rw [h'.bytes p hne' (by omega), h.bytes p hne (by omega)]

/-- Bytes before and after the ones that are written are kept. -/
theorem Wrote.bytesOf {lo hi p k : Nat} (h : Wrote m m' f n lo hi) (hall : Allotted m f p (p + k))
    (hp : p + k ≤ lo ∨ hi ≤ p) :
  bytesOf m' f p k = bytesOf m f p k
  := by
  unfold Fs.bytesOf
  apply List.map_congr_left
  intro i hi
  rw [List.mem_range] at hi
  exact h.bytes _ (hall _ (by omega) (by omega)) (by omega)

/-- Blocks that exist are kept. -/
theorem Wrote.allotted {lo hi p stop : Nat} (h : Wrote m m' f n lo hi)
    (hall : Allotted m f p stop) :
  Allotted m' f p stop
  := by
  intro q hq hq'
  have hne := hall q hq hq'
  have hkept := h.kept (.data (q / BLKSIZE)) hne
  exact hkept.trans_ne hne

/-- The disk is full for a change when it is full for what comes after it. -/
theorem Wrote.full {lo hi : Nat} (h : Wrote m m' f n lo hi) (hfull : avail m' < missing m' f n) :
  avail m < missing m f n
  := by
  have hspent := h.spent
  unfold Spent at hspent
  omega

/-- Bytes are stored in a block of the file. -/
theorem wrote_setBytes {p : Nat} {bs : List Byte} (hf : FileOk m f)
    (hne : dataBlock m f (p / BLKSIZE) ≠ 0) (hlen : p % BLKSIZE + bs.length ≤ BLKSIZE) (n : Nat) :
  Wrote m (writeBytes m (byteAddr m f p) bs) f n p (p + bs.length)
    ∧ bytesOf (writeBytes m (byteAddr m f p) bs) f p bs.length = bs
  := by
  have hown := owns_slot (s := .data (p / BLKSIZE)) hne
  have hout : ∀ a, a / BLKSIZE ≠ dataBlock m f (p / BLKSIZE) →
      writeBytes m (byteAddr m f p) bs a = m a := by
    intro a ha
    apply writeBytes_of_disjoint
    by_contra hin
    apply ha
    simp only [byteAddr, BLKSIZE] at hin hlen ⊢
    omega
  have hsame := sameBitmap_of_block (hf.safe _ hown) hout
  have hslot : slot (writeBytes m (byteAddr m f p) bs) f = slot m f := by
    apply slot_congr
    · intro a ha
      apply hout
      rw [hf.placed.home ha.inside.1 ha.inside.2]
      exact (hf.off_home _ hown).symm
    · intro hi a ha
      apply hout
      rw [ha]
      intro heq
      have := hf.inj .indirect (.data (p / BLKSIZE)) hi heq
      cases this
  have howns : ∀ c, Owns (writeBytes m (byteAddr m f p) bs) f c ↔ Owns m f c := by
    intro c
    rw [Owns, Owns, hslot]
  have haddr : ∀ q, byteAddr (writeBytes m (byteAddr m f p) bs) f q = byteAddr m f q := by
    intro q
    have := congrFun hslot (.data (q / BLKSIZE))
    exact congrArg (fun d => d * BLKSIZE + q % BLKSIZE) this
  constructor
  · constructor
    case ok => exact hf.congr hsame hslot
    case moved =>
      apply Moved.of_same hf hsame hslot
      intro a _ _ ha _
      apply hout
      intro heq
      exact ha (heq ▸ hown)
    case kept =>
      intro s _
      rw [hslot]
    case spent =>
      unfold Spent missing
      rw [hsame.avail, hslot]
    case within =>
      intro s hs
      rw [hslot] at hs
      exact .inl hs
    case size =>
      apply fileSize_congr
      intro a ha ha'
      apply hout
      rw [hf.placed.home]
      · exact (hf.off_home _ hown).symm
      · simp only [f_size] at ha
        omega
      · simp only [f_size, FILESIZE] at ha' ⊢
        omega
    case bytes =>
      intro q hq hpq
      rw [byteAt, haddr]
      apply writeBytes_of_disjoint
      by_contra hin
      -- two positions in one block are in the same place of the file
      have hblock : dataBlock m f (q / BLKSIZE) = dataBlock m f (p / BLKSIZE) := by
        simp only [byteAddr, BLKSIZE] at hin hlen ⊢
        omega
      have hpos := hf.inj (.data (q / BLKSIZE)) (.data (p / BLKSIZE)) hq hblock
      rw [Slot.data.injEq] at hpos
      simp only [byteAddr, BLKSIZE] at hin hlen hpos
      omega
  · apply List.ext_getElem
    · rw [bytesOf, List.length_map, List.length_range]
    intro i _ hi
    have hdiv : (p + i) / BLKSIZE = p / BLKSIZE := by
      simp only [BLKSIZE] at hlen ⊢
      omega
    have hplace : byteAddr m f (p + i) = byteAddr m f p + i := by
      rw [byteAddr, byteAddr, hdiv]
      simp only [BLKSIZE] at hlen ⊢
      omega
    simp only [bytesOf, List.getElem_map, List.getElem_range]
    rw [byteAt, haddr, hplace, writeBytes_getElem]

/-! ### Reading -/

/-- The block of a file in which a position lies. -/
theorem allotted_chunk {p k : Nat} (hne : dataBlock m f (p / BLKSIZE) ≠ 0)
    (hk : p % BLKSIZE + k ≤ BLKSIZE) :
  Allotted m f p (p + k)
  := by
  intro q hq hq'
  have hdiv : q / BLKSIZE = p / BLKSIZE := by
    simp only [BLKSIZE] at hk ⊢
    omega
  rw [hdiv]
  exact hne

/-- Part of a block of a file is read. -/
theorem ends_getBytes_chunk {Q : List Byte → Memory → Prop} {p k : Nat} (hf : FileOk m f)
    (hne : dataBlock m f (p / BLKSIZE) ≠ 0) (hk : p % BLKSIZE + k ≤ BLKSIZE)
    (hQ : Q (bytesOf m f p k) m) :
  (getBytes (byteAddr m f p) k).Ends valid m Q E
  := by
  have hown := owns_slot (s := .data (p / BLKSIZE)) hne
  apply ends_getBytes
  · intro i hi
    apply hf.valid_owned hown
    simp only [slot, byteAddr, BLKSIZE] at hk ⊢
    omega
  · have heq : bytesOf m f p k = (List.range k).map (fun i => m (byteAddr m f p + i)) := by
      unfold bytesOf
      apply List.map_congr_left
      intro i hi
      rw [List.mem_range] at hi
      have hdiv : (p + i) / BLKSIZE = p / BLKSIZE := by
        simp only [BLKSIZE] at hk ⊢
        omega
      rw [byteAt, byteAddr, byteAddr, hdiv]
      apply congrArg
      simp only [BLKSIZE] at hk ⊢
      omega
    rw [← heq]
    exact hQ

/-- The bytes accessed at a time lie in one block, and there are some. -/
theorem chunk_spec {pos stop : Word} (h : pos.toNat < stop.toNat) (hstop : stop.toNat < 2 ^ 31) :
  pos.toNat % BLKSIZE + (chunk pos stop).toNat ≤ BLKSIZE ∧ 0 < (chunk pos stop).toNat
    ∧ (pos + chunk pos stop).toNat = pos.toNat + (chunk pos stop).toNat
    ∧ pos.toNat + (chunk pos stop).toNat ≤ stop.toNat
  := by
  have hchunk := chunk_toNat (Nat.le_of_lt h) hstop
  rw [BitVec.toNat_add, hchunk]
  simp only [BLKSIZE]
  omega

/-- The loop of `file_read` returns the bytes up to `stop`. -/
theorem ends_readLoop {count stop : Word} (hn : n ≤ NINDIRECT + NDIRECT)
    (hstop : stop.toNat ≤ n * BLKSIZE) {fuel : Nat} {pos : Word} {buf : List Byte}
    (hf : FileOk m f) (hpos : pos.toNat ≤ stop.toNat) (hfuel : stop.toNat - pos.toNat ≤ fuel) :
  (readLoop f count stop fuel pos buf).Ends valid m
    (fun r m' => r = (count, buf ++ bytesOf m' f pos.toNat (stop.toNat - pos.toNat))
      ∧ Allotted m' f pos.toNat stop.toNat ∧ Stepped m m' f n) (avail m < missing m f n)
  := by
  have hsmall : stop.toNat < 2 ^ 31 := by
    simp only [NDIRECT, NINDIRECT, BLKSIZE] at hn hstop
    omega
  induction fuel generalizing m pos buf with
  | zero =>
      rw [readLoop, ends_pure, append_bytesOf_zero (by omega)]
      exact ⟨rfl, fun q hq hq' => by omega, Stepped.refl hf n⟩
  | succ fuel ih =>
      rw [readLoop, ends_ite]
      constructor
      · intro hlt
        rw [BitVec.lt_def] at hlt
        obtain ⟨hin, hpositive, hnext, hle⟩ := chunk_spec hlt hsmall
        have hdiv : (pos.sdiv (BitVec.ofNat 32 BLKSIZE)).toNat = pos.toNat / BLKSIZE :=
          sdiv_BLKSIZE (by omega)
        have hblock : pos.toNat / BLKSIZE < n := by
          apply Nat.div_lt_of_lt_mul
          rw [Nat.mul_comm]
          omega
        rw [ends_bind]
        apply (ends_fileGetBlock hf (by omega) (n := n) (by omega)).mono _ id
        rintro _ m₁ ⟨rfl, hne, hstep⟩
        rw [hdiv] at hne
        rw [hdiv, ends_bind, within_eq (by omega)]
        apply ends_getBytes_chunk hstep.ok hne hin
        apply (hstep.ends (ih hstep.ok (by omega) (by omega))).mono _ id
        rintro _ m₂ ⟨rfl, hall, hstep'⟩
        have hall' := allotted_chunk hne hin
        refine ⟨?_, ?_, hstep.trans hstep'⟩
        · have hlen : stop.toNat - pos.toNat
              = (chunk pos stop).toNat + (stop.toNat - (pos + chunk pos stop).toNat) := by
            omega
          have hkept := hstep'.wrote hstep.ok 0
          rw [List.append_assoc, hlen, bytesOf_append, hkept.bytesOf hall' (.inr (Nat.zero_le _)),
            hnext]
        · intro q hq hq'
          rcases Nat.lt_or_ge q (pos.toNat + (chunk pos stop).toNat) with h | h
          · exact (hstep'.wrote hstep.ok 0).allotted hall' q hq h
          · apply hall q _ hq'
            rw [hnext]
            exact h
      · intro hge
        rw [BitVec.lt_def] at hge
        rw [ends_pure, append_bytesOf_zero (by omega)]
        exact ⟨rfl, fun q hq hq' => by omega, Stepped.refl hf n⟩

/-- Numbers that are not negative are compared as they are. -/
theorem sle_iff {v w : Word} (hv : v.toNat < 2 ^ 31) (hw : w.toNat < 2 ^ 31) :
  v.sle w = true ↔ v.toNat ≤ w.toNat
  := by
  rw [BitVec.sle_iff_toInt_le, BitVec.toInt_eq_toNat_of_lt (by omega),
    BitVec.toInt_eq_toNat_of_lt (by omega)]
  omega

theorem slt_iff {v w : Word} (hv : v.toNat < 2 ^ 31) (hw : w.toNat < 2 ^ 31) :
  v.slt w = true ↔ v.toNat < w.toNat
  := by
  rw [BitVec.slt_iff_toInt_lt, BitVec.toInt_eq_toNat_of_lt (by omega),
    BitVec.toInt_eq_toNat_of_lt (by omega)]
  omega

theorem minU_toNat (v w : Word) :
  (minU v w).toNat = min v.toNat w.toNat
  := by
  rw [minU]
  split
  case isTrue h =>
    rw [BitVec.le_def] at h
    omega
  case isFalse h =>
    rw [BitVec.le_def] at h
    omega

/-- The number of bytes that can be read. -/
def readable (m : Memory) (f : Nat) (count offset : Word) : Nat :=
  min count.toNat (fileSize m f - offset.toNat)

/-- `file_read` returns the bytes of the file, or panics when the disk is full. -/
theorem ends_fileRead (count : Word) {offset : Word} (hf : FileOk m f) (hoff : offset.toNat < 2 ^ 31)
    (hn : n ≤ NINDIRECT + NDIRECT) (hsize : fileSize m f ≤ n * BLKSIZE) :
  (fileRead f count offset).Ends valid m
    (fun r m' => r = (BitVec.ofNat 32 (readable m f count offset),
        bytesOf m' f offset.toNat (readable m f count offset))
      ∧ Allotted m' f offset.toNat (offset.toNat + readable m f count offset)
      ∧ Stepped m m' f n) (avail m < missing m f n)
  := by
  have hsmall : fileSize m f < 2 ^ 31 := by
    simp only [NDIRECT, NINDIRECT, BLKSIZE] at hn hsize
    omega
  have hsle := sle_iff (v := read32 m (f_size f)) hsmall hoff
  unfold fileRead
  rw [ends_bind, ends_get32, ends_ite]
  refine ⟨hf.okWord_f_size, ?_, ?_⟩
  · intro hge
    rw [hsle] at hge
    have hzero : readable m f count offset = 0 := by
      rw [readable]
      change fileSize m f ≤ _ at hge
      omega
    rw [ends_pure, hzero]
    exact ⟨rfl, fun q hq hq' => by omega, Stepped.refl hf n⟩
  · intro hlt
    rw [hsle] at hlt
    change ¬ fileSize m f ≤ _ at hlt
    have hcount : (minU count (read32 m (f_size f) - offset)).toNat
        = readable m f count offset := by
      rw [minU_toNat, BitVec.toNat_sub_of_le (by rw [BitVec.le_def]; change _ ≤ fileSize m f; omega)]
      rfl
    have hstop : (offset + minU count (read32 m (f_size f) - offset)).toNat
        = offset.toNat + readable m f count offset := by
      rw [BitVec.toNat_add, hcount, readable]
      omega
    have hle : readable m f count offset ≤ fileSize m f - offset.toNat := Nat.min_le_right _ _
    dsimp only
    rw [hcount]
    have hend : (offset + minU count (read32 m (f_size f) - offset)).toNat ≤ n * BLKSIZE := by
      rw [hstop]
      omega
    apply (ends_readLoop hn hend hf (by omega) (by omega)).mono _ id
    rintro _ m' ⟨rfl, hall, hstep⟩
    rw [hstop, Nat.add_sub_cancel_left, List.nil_append]
    rw [hstop] at hall
    refine ⟨?_, hall, hstep⟩
    rw [← hcount, BitVec.ofNat_toNat, BitVec.setWidth_eq]

/-! ### Writing -/

/-- The loop of `file_write` stores the bytes up to `stop`. -/
theorem ends_writeLoop {count stop : Word} (hn : n ≤ NINDIRECT + NDIRECT)
    (hstop : stop.toNat ≤ n * BLKSIZE) {fuel : Nat} {pos : Word} {buf : List Byte}
    (hf : FileOk m f) (hpos : pos.toNat ≤ stop.toNat) (hfuel : stop.toNat - pos.toNat ≤ fuel)
    (hbuf : buf.length = stop.toNat - pos.toNat) :
  (writeLoop f count stop fuel pos buf).Ends valid m
    (fun r m' => r = count ∧ Wrote m m' f n pos.toNat stop.toNat
      ∧ Allotted m' f pos.toNat stop.toNat ∧ bytesOf m' f pos.toNat buf.length = buf)
    (avail m < missing m f n)
  := by
  have hsmall : stop.toNat < 2 ^ 31 := by
    simp only [NDIRECT, NINDIRECT, BLKSIZE] at hn hstop
    omega
  -- nothing is left to be written
  have hdone : ∀ m (pos : Word) (buf : List Byte), FileOk m f → pos.toNat = stop.toNat →
      buf.length = stop.toNat - pos.toNat → Wrote m m f n pos.toNat stop.toNat
        ∧ Allotted m f pos.toNat stop.toNat ∧ bytesOf m f pos.toNat buf.length = buf := by
    intro m pos buf hf heq hlen
    have hnil : buf = [] := List.eq_nil_of_length_eq_zero (by omega)
    rw [hnil, heq]
    exact ⟨(Stepped.refl hf n).wrote hf _, fun q hq hq' => by omega, rfl⟩
  induction fuel generalizing m pos buf with
  | zero =>
      rw [writeLoop, ends_pure]
      exact ⟨rfl, hdone m pos buf hf (by omega) hbuf⟩
  | succ fuel ih =>
      rw [writeLoop, ends_ite]
      constructor
      · intro hlt
        rw [BitVec.lt_def] at hlt
        obtain ⟨hin, hpositive, hnext, hle⟩ := chunk_spec hlt hsmall
        have hdiv : (pos.sdiv (BitVec.ofNat 32 BLKSIZE)).toNat = pos.toNat / BLKSIZE :=
          sdiv_BLKSIZE (by omega)
        have hblock : pos.toNat / BLKSIZE < n := by
          apply Nat.div_lt_of_lt_mul
          rw [Nat.mul_comm]
          omega
        have htake : (buf.take (chunk pos stop).toNat).length = (chunk pos stop).toNat := by
          rw [List.length_take]
          omega
        rw [ends_bind]
        apply (ends_fileGetBlock hf (by omega) (n := n) (by omega)).mono _ id
        rintro _ m₁ ⟨rfl, hne, hstep⟩
        rw [hdiv] at hne
        rw [hdiv, ends_bind, within_eq (by omega)]
        have hin' : pos.toNat % BLKSIZE + (buf.take (chunk pos stop).toNat).length ≤ BLKSIZE := by
          rw [htake]
          exact hin
        have hstored := wrote_setBytes hstep.ok hne hin' n
        have hown := owns_slot (s := .data (pos.toNat / BLKSIZE)) hne
        apply ends_setBytes
        · intro m' hm' i hi
          rw [htake] at hm' hi
          apply valid_of_block hstep.ok.bitmap (hstep.ok.safe _ hown) (hstep.ok.lt _ hown)
            (hstep.ok.inUse _ hown)
          · intro a ha
            apply hm'
            simp only [slot, BLKSIZE] at ha hin ⊢
            omega
          · simp only [slot, BLKSIZE] at hin ⊢
            omega
        · change Ends valid _ (writeBytes m₁ (byteAddr m₁ f pos.toNat) _) _ _
          rw [htake] at hstored
          generalize writeBytes m₁ (byteAddr m₁ f pos.toNat) _ = m₂ at hstored ⊢
          obtain ⟨hwrote, hbytes⟩ := hstored
          have hwrote' := (hstep.wrote hf pos.toNat).trans hwrote (Nat.le_refl _) (by omega)
          have hall' := hwrote.allotted (allotted_chunk hne hin)
          have hrest : (buf.drop (chunk pos stop).toNat).length
              = stop.toNat - (pos + chunk pos stop).toNat := by
            rw [List.length_drop]
            omega
          apply (ih hwrote.ok (by omega) (by omega) hrest).mono _ hwrote'.full
          rintro r m₃ ⟨rfl, hwrote₃, hall, hbytes₃⟩
          rw [hnext] at hwrote₃ hall hbytes₃
          refine ⟨rfl, hwrote'.trans hwrote₃ (by omega) hle, ?_, ?_⟩
          · intro q hq hq'
            rcases Nat.lt_or_ge q (pos.toNat + (chunk pos stop).toNat) with h | h
            · exact hwrote₃.allotted hall' q hq h
            · exact hall q h hq'
          · have hlen : buf.length
                = (chunk pos stop).toNat + (buf.drop (chunk pos stop).toNat).length := by
              rw [List.length_drop]
              omega
            rw [hlen, bytesOf_append, hbytes₃, hwrote₃.bytesOf hall' (.inl (Nat.le_refl _)),
              hbytes, List.take_append_drop]
      · intro hge
        rw [BitVec.lt_def] at hge
        rw [ends_pure]
        exact ⟨rfl, hdone m pos buf hf (by omega) hbuf⟩

/-! ### Extending a file -/

/-- `f` with the size `w`. -/
def setSize (m : Memory) (f : Nat) (w : Word) : Memory :=
  write32 m (f_size f) w

theorem setSize_frame {w : Word} {a : Nat} (ha : a < f_size f ∨ f_size f + 4 ≤ a) :
  setSize m f w a = m a
  := write32_of_disjoint m w (by omega)

theorem f_size_inside {a : Nat} (ha : f_size f ≤ a) (ha' : a < f_size f + 4) :
  f ≤ a ∧ a < f + FILESIZE ∧ ¬ InSlots f a
  := by
  simp only [InSlots, f_size, f_direct, FILESIZE] at ha ha' ⊢
  omega

theorem sameBitmap_setSize (hf : FileOk m f) (w : Word) :
  SameBitmap m (setSize m f w)
  := by
  constructor
  · intro x hx hx'
    apply setSize_frame
    by_contra hin
    exact (hf.super_off hx hx').1 (.inl (by omega))
  · intro a ha
    apply setSize_frame
    by_contra hin
    obtain ⟨h, h', -⟩ := f_size_inside (f := f) (a := a) (by omega) (by omega)
    exact hf.not_inBitmap h h' ha

/-- The slots do not change with the size. -/
theorem slot_setSize (hf : FileOk m f) (w : Word) :
  slot (setSize m f w) f = slot m f
  := by
  apply slot_congr
  · intro a ha
    apply setSize_frame
    by_contra hin
    exact (f_size_inside (f := f) (a := a) (by omega) (by omega)).2.2 ha
  · intro hne a ha
    apply setSize_frame
    by_contra hin
    obtain ⟨h, h', -⟩ := f_size_inside (f := f) (a := a) (by omega) (by omega)
    rw [hf.placed.home h h'] at ha
    exact hf.ne_home hne ha.symm

/-- What setting the size leaves. -/
theorem setSize_spec (hf : FileOk m f) (w : Word) :
  FileOk (setSize m f w) f ∧ Moved m (setSize m f w) f ∧ fileSize (setSize m f w) f = w.toNat
  := by
  have hsame := sameBitmap_setSize hf w
  have hslot := slot_setSize hf w
  refine ⟨hf.congr hsame hslot, Moved.of_same hf hsame hslot ?_, ?_⟩
  · intro a _ hmeta _ _
    apply setSize_frame
    by_contra hin
    exact hmeta (.inl (by omega))
  · rw [fileSize, setSize, read32_write32]

/-- The bytes do not change with the size. -/
theorem byteAt_setSize (hf : FileOk m f) (w : Word) {p : Nat}
    (hne : dataBlock m f (p / BLKSIZE) ≠ 0) :
  byteAt (setSize m f w) f p = byteAt m f p
  := by
  have hslot := congrFun (slot_setSize hf w) (.data (p / BLKSIZE))
  have haddr : byteAddr (setSize m f w) f p = byteAddr m f p :=
    congrArg (fun d => d * BLKSIZE + p % BLKSIZE) hslot
  have hown := owns_slot (s := .data (p / BLKSIZE)) hne
  rw [byteAt, haddr]
  apply setSize_frame
  by_contra hin
  obtain ⟨h, h', -⟩ := f_size_inside (f := f) (a := byteAddr m f p) (by omega) (by omega)
  apply hf.off_home _ hown
  rw [← hf.placed.home h h', byteAddr_div]
  rfl

/-- The structure of a file can be flushed. -/
theorem FileOk.valid_self (hf : FileOk m f) :
  valid m f = true
  := by
  have hdiv : f / BLKSIZE = home f := rfl
  apply hf.bitmap.valid
  · rw [hdiv]
    exact hf.home_lt
  · rw [hdiv]
    exact hf.home_inUse

/-- Setting a size that is no smaller. -/
theorem ends_fileSetSize_extend {Q : Word → Memory → Prop} {w : Word} (hf : FileOk m f)
    (hsize : fileSize m f ≤ w.toNat) (hw : w.toNat < 2 ^ 31) (hQ : Q 0 (setSize m f w)) :
  (fileSetSize f w).Ends valid m Q E
  := by
  have hslt := slt_iff (w := read32 m (f_size f)) hw (Nat.lt_of_le_of_lt hsize hw)
  unfold fileSetSize
  rw [ends_bind]
  unfold truncateTo
  rw [ends_bind, ends_get32]
  refine ⟨hf.okWord_f_size, ?_⟩
  rw [if_neg (by rw [hslt]; exact Nat.not_lt.mpr hsize), ends_pure, ends_bind, ends_set32]
  refine ⟨hf.okWord_f_size, ?_⟩
  rw [ends_bind, flushBlock, ends_sync, ends_pure]
  exact ⟨(setSize_spec hf w).1.valid_self, hQ⟩

/-- A file is extended when it is too small. -/
theorem ends_extendTo {Q : Word → Memory → Prop} {stop : Word} (hf : FileOk m f)
    (hstop : stop.toNat < 2 ^ 31) (hthere : stop.toNat ≤ fileSize m f → Q 0 m)
    (hextend : fileSize m f < stop.toNat → Q 0 (setSize m f stop)) :
  (extendTo f stop).Ends valid m Q E
  := by
  unfold extendTo
  rw [ends_bind, ends_get32, ends_ite]
  refine ⟨hf.okWord_f_size, ?_, ?_⟩
  · intro hlt
    rw [BitVec.lt_def] at hlt
    exact ends_fileSetSize_extend hf (Nat.le_of_lt hlt) hstop (hextend hlt)
  · intro hge
    rw [BitVec.lt_def] at hge
    rw [ends_pure]
    exact hthere (Nat.le_of_not_lt hge)

/-! ### Writing a file -/

/-- What is left when `buf` was written to `f` from position `p` on. -/
structure Written (m m' : Memory) (f n p : Nat) (buf : List Byte) : Prop where
  ok : FileOk m' f
  moved : Moved m m' f
  kept : ∀ s, slot m f s ≠ 0 → slot m' f s = slot m f s
  spent : Spent m m' f n
  within : ∀ s, slot m' f s ≠ 0 → slot m f s ≠ 0 ∨ s ∈ needs n
  size : fileSize m' f = max (fileSize m f) (p + buf.length)
  bytes : ∀ q, dataBlock m f (q / BLKSIZE) ≠ 0 → q < p ∨ p + buf.length ≤ q →
    byteAt m' f q = byteAt m f q
  allotted : Allotted m' f p (p + buf.length)
  data : bytesOf m' f p buf.length = buf

/-- `file_write` stores the bytes, or panics when the disk is full. -/
theorem ends_fileWrite {buf : List Byte} {offset : Word} (hf : FileOk m f)
    (hn : n ≤ NINDIRECT + NDIRECT) (hle : offset.toNat + buf.length ≤ n * BLKSIZE) :
  (fileWrite f buf offset).Ends valid m
    (fun r m' => r = BitVec.ofNat 32 buf.length ∧ Written m m' f n offset.toNat buf)
    (avail m < missing m f n)
  := by
  have hcap : n * BLKSIZE < 2 ^ 31 := by
    simp only [NDIRECT, NINDIRECT, BLKSIZE] at hn ⊢
    omega
  have hcount : (BitVec.ofNat 32 buf.length).toNat = buf.length := by
    rw [BitVec.toNat_ofNat]
    omega
  have hstop : (offset + BitVec.ofNat 32 buf.length).toNat = offset.toNat + buf.length := by
    rw [BitVec.toNat_add, hcount]
    omega
  have hloop : ∀ m₁, FileOk m₁ f →
      (writeLoop f (BitVec.ofNat 32 buf.length) (offset + BitVec.ofNat 32 buf.length)
        (BitVec.ofNat 32 buf.length).toNat offset buf).Ends valid m₁
      (fun r m' => r = BitVec.ofNat 32 buf.length
        ∧ Wrote m₁ m' f n offset.toNat (offset.toNat + buf.length)
        ∧ Allotted m' f offset.toNat (offset.toNat + buf.length)
        ∧ bytesOf m' f offset.toNat buf.length = buf) (avail m₁ < missing m₁ f n) := by
    intro m₁ hf₁
    rw [← hstop]
    exact ends_writeLoop hn (by omega) hf₁ (by omega) (by omega) (by omega)
  have hret : (0 : Word).slt 0 = false := by decide
  unfold fileWrite
  dsimp only
  rw [ends_bind]
  apply ends_extendTo hf (by omega)
  · intro hthere
    rw [hstop] at hthere
    rw [hret, if_neg Bool.false_ne_true]
    apply (hloop m hf).mono _ id
    rintro r m' ⟨rfl, hw, hall, hdata⟩
    refine ⟨rfl, hw.ok, hw.moved, hw.kept, hw.spent, hw.within, ?_, hw.bytes, hall, hdata⟩
    rw [hw.size]
    omega
  · intro hextend
    rw [hstop] at hextend
    obtain ⟨hf₁, hmoved, hsize₁⟩ := setSize_spec hf (offset + BitVec.ofNat 32 buf.length)
    have hslot := slot_setSize hf (offset + BitVec.ofNat 32 buf.length)
    have hspent : avail (setSize m f (offset + BitVec.ofNat 32 buf.length)) = avail m :=
      (sameBitmap_setSize hf _).avail
    have hmissing : missing (setSize m f (offset + BitVec.ofNat 32 buf.length)) f n
        = missing m f n := by
      rw [missing, hslot, ← missing]
    have hbytes : ∀ q, dataBlock m f (q / BLKSIZE) ≠ 0 →
        byteAt (setSize m f (offset + BitVec.ofNat 32 buf.length)) f q = byteAt m f q :=
      fun q hq => byteAt_setSize hf _ hq
    rw [hret, if_neg Bool.false_ne_true]
    generalize setSize m f (offset + BitVec.ofNat 32 buf.length) = m₁ at *
    apply (hloop m₁ hf₁).mono
    · rintro r m' ⟨rfl, hw, hall, hdata⟩
      refine ⟨rfl, hw.ok, hmoved.trans hw.moved, ?_, ?_, ?_, ?_, ?_, hall, hdata⟩
      · rw [← hslot]
        exact hw.kept
      · have h := hw.spent
        unfold Spent at h ⊢
        omega
      · rw [← hslot]
        exact hw.within
      · rw [hw.size, hsize₁, hstop]
        omega
      · intro q hq hout
        have hq' : dataBlock m₁ f (q / BLKSIZE) ≠ 0 := by
          have hs := congrFun hslot (.data (q / BLKSIZE))
          exact hs.trans_ne hq
        rw [hw.bytes q hq' hout, hbytes q hq]
    · rw [hspent, hmissing]
      exact id

end Jos.Fs
