import Jos.Fs.Tidy

/-!
# Flushing a file

`file_flush` writes the structure of a file, its indirect block and all its blocks back, so
that the disk alone shows the file as the cache does.  It changes nothing in the cache, and
nothing at all when it is called again.
-/

namespace Jos.Fs

open Bytes Io

variable {m m' : Memory} {f i : Nat} {s s' : Cache}

/-! ### Programs that do not store -/

theorem quiet_diskaddr (b : Word) :
  (diskaddr b).Quiet
  := by
  apply quiet_ite (quiet_panic _)
  apply quiet_bind (quiet_get32 _)
  intro n
  exact quiet_ite (quiet_panic _) (quiet_pure _)

theorem quiet_fileBlockWalk (f : Nat) (w : Word) :
  (fileBlockWalk f w false).Quiet
  := by
  apply quiet_ite (quiet_pure _)
  apply quiet_ite _ (quiet_pure _)
  apply quiet_bind
  · apply quiet_bind (quiet_get32 _)
    intro n
    exact quiet_ite (quiet_pure _) (quiet_pure _)
  · intro r
    cases r with
    | some r => exact quiet_pure _
    | none =>
        apply quiet_bind (quiet_get32 _)
        intro n
        apply quiet_bind (quiet_diskaddr _)
        intro va
        exact quiet_pure _

theorem quiet_flushSlot (a : Nat) :
  (flushSlot a).Quiet
  := by
  apply quiet_bind (quiet_get32 _)
  intro b
  apply quiet_ite (quiet_pure _)
  apply quiet_bind (quiet_diskaddr _)
  intro va
  exact quiet_sync _

theorem quiet_flushFileBlock (f i : Nat) :
  (flushFileBlock f i).Quiet
  := by
  apply quiet_bind (quiet_fileBlockWalk _ _)
  intro r
  cases r with
  | error r => exact quiet_pure _
  | ok a => exact quiet_flushSlot a

theorem quiet_fileFlush (f : Nat) :
  (fileFlush f).Quiet
  := by
  apply quiet_bind (quiet_get32 _)
  intro size
  apply quiet_bind (quiet_forUp (quiet_flushFileBlock f))
  intro _
  apply quiet_bind (quiet_sync _)
  intro _
  exact quiet_flushSlot _

/-! ### What is flushed -/

theorem runs_diskaddr {b : Word} (hm : BitmapOk m) (hne : b ≠ 0) (hlt : b.toNat < nblocks m) :
  (diskaddr b).Runs valid m (b.toNat * BLKSIZE) m []
  := by
  unfold diskaddr
  rw [if_neg hne]
  apply runs_bind_nil (runs_get32 hm.okWord_s_nblocks)
  rw [if_neg]
  · exact runs_pure _ m
  · rw [BitVec.le_def]
    exact Nat.not_le.mpr hlt

/-- The flush of a block, if there is one. -/
def flushOf (m : Memory) (b : Nat) : List (Nat × Memory) :=
  if b = 0 then [] else [(b * BLKSIZE, m)]

/-- The block in a slot is flushed. -/
theorem runs_flushSlot {a b : Nat} (hf : FileOk m f) (hok : okWord valid m a = true)
    (hb : (read32 m a).toNat = b) (hown : b ≠ 0 → Owns m f b) :
  (flushSlot a).Runs valid m () m (flushOf m b)
  := by
  unfold flushSlot
  apply runs_bind_nil (runs_get32 hok)
  by_cases h : read32 m a = 0
  · have hzero : b = 0 := by
      rw [← hb, h]
      rfl
    rw [if_pos h, flushOf, if_pos hzero]
    exact runs_pure () m
  · have hne : b ≠ 0 := by
      rintro rfl
      exact h (BitVec.eq_of_toNat_eq hb)
    have hlt : (read32 m a).toNat < nblocks m := by
      rw [hb]
      exact hf.lt b (hown hne)
    rw [if_neg h, flushOf, if_neg hne, ← hb]
    apply runs_bind_nil (runs_diskaddr hf.bitmap h hlt)
    apply runs_sync
    apply hf.valid_owned (hown hne)
    rw [hb, Nat.mul_div_cancel _ (by decide)]

/-- The slot of a block is found when it exists. -/
theorem runs_fileBlockWalk {w : Word} (hf : FileOk m f) (hw : w.toNat < NINDIRECT + NDIRECT)
    (hind : NDIRECT ≤ w.toNat → ind m f ≠ 0) :
  (fileBlockWalk f w false).Runs valid m (.ok (slotAddr m f w.toNat)) m []
  := by
  unfold fileBlockWalk slotAddr
  by_cases hlt : w.toNat < NDIRECT
  · rw [if_pos hlt, if_pos hlt]
    exact runs_pure _ m
  · have hne := hind (Nat.le_of_not_lt hlt)
    have hne' : read32 m (f_indirect f) ≠ 0 := by
      intro h
      rw [ind, h] at hne
      exact hne rfl
    have hblock := hf.lt _ (owns_slot (s := .indirect) hne)
    rw [if_neg hlt, if_neg hlt, if_pos hw]
    have hneed : (needIndirect f false).Runs valid m none m [] := by
      apply runs_bind_nil (runs_get32 hf.okWord_f_indirect)
      rw [if_pos hne']
      exact runs_pure _ m
    apply runs_bind_nil hneed
    apply runs_bind_nil (runs_get32 hf.okWord_f_indirect)
    apply runs_bind_nil (runs_diskaddr hf.bitmap hne' hblock)
    exact runs_pure _ m

/-- The slot of a block that lacks an indirect block is not found. -/
theorem runs_fileBlockWalk_none {w : Word} (hf : FileOk m f) (hw : w.toNat < NINDIRECT + NDIRECT)
    (hge : NDIRECT ≤ w.toNat) (hind : ind m f = 0) :
  (fileBlockWalk f w false).Runs valid m (.error (-E_NOT_FOUND)) m []
  := by
  have hzero : read32 m (f_indirect f) = 0 := BitVec.eq_of_toNat_eq hind
  have hneed : (needIndirect f false).Runs valid m (some (-E_NOT_FOUND)) m [] := by
    apply runs_bind_nil (runs_get32 hf.okWord_f_indirect)
    rw [if_neg (not_not.mpr hzero)]
    exact runs_pure _ m
  unfold fileBlockWalk
  rw [if_neg (Nat.not_lt.mpr hge), if_pos hw]
  apply runs_bind_nil hneed
  exact runs_pure _ m

/-- A block of the file is flushed if it exists. -/
theorem runs_flushFileBlock (hf : FileOk m f) (hi : i < NINDIRECT + NDIRECT) :
  (flushFileBlock f i).Runs valid m () m (flushOf m (dataBlock m f i))
  := by
  have hw : (BitVec.ofNat 32 i).toNat = i := by
    rw [BitVec.toNat_ofNat]
    simp only [NINDIRECT, NDIRECT, BLKSIZE] at hi
    omega
  unfold flushFileBlock
  by_cases hind : NDIRECT ≤ i ∧ ind m f = 0
  · have hzero : dataBlock m f i = 0 := by
      rw [dataBlock, if_neg (Nat.not_lt.mpr hind.1), if_neg (fun h => h.2 hind.2)]
    rw [hzero]
    apply runs_bind_nil (runs_fileBlockWalk_none hf (by rw [hw]; exact hi)
      (by rw [hw]; exact hind.1) hind.2)
    exact runs_pure () m
  · have hind' : NDIRECT ≤ i → ind m f ≠ 0 := fun h h' => hind ⟨h, h'⟩
    apply runs_bind_nil (runs_fileBlockWalk hf (by rw [hw]; exact hi)
      (by rw [hw]; exact hind'))
    rw [hw]
    apply runs_flushSlot hf (hf.okWord_slotAddr hi hind') (read32_slotAddr hi hind')
    exact fun hne => owns_slot (s := .data i) hne

/-- The flushes that `file_flush` asks for. -/
def fileFlushes (m : Memory) (f : Nat) : List (Nat × Memory) :=
  (List.range' 0 (blockCount (fileSize m f))).flatMap (fun i => flushOf m (dataBlock m f i))
    ++ (f, m) :: flushOf m (ind m f)

/-- `file_flush` leaves the memory, and flushes the blocks of the file in order. -/
theorem runs_fileFlush (hf : FileOk m f) (hsize : fileSize m f ≤ MAXFILESIZE) :
  (fileFlush f).Runs valid m () m (fileFlushes m f)
  := by
  have hcount : (blocksFor (read32 m (f_size f))).toInt.toNat = blockCount (fileSize m f) := by
    have hle := blockCount_le hsize
    have hblocks : (blocksFor (read32 m (f_size f))).toNat = blockCount (fileSize m f) :=
      blocksFor_toNat hsize
    simp only [NINDIRECT, NDIRECT, BLKSIZE] at hle
    rw [BitVec.toInt_eq_toNat_of_lt (by omega), hblocks]
    rfl
  unfold fileFlush fileFlushes
  apply runs_bind_nil (runs_get32 hf.okWord_f_size)
  rw [hcount]
  apply runs_bind
  · apply runs_forUp
    intro i _ hi
    apply runs_flushFileBlock hf
    have hle := blockCount_le hsize
    omega
  · apply runs_bind (runs_sync hf.valid_self)
    apply runs_flushSlot hf hf.okWord_f_indirect rfl
    exact fun hne => owns_slot (s := .indirect) hne

/-! ### What the disk shows -/

/-- A block that is flushed is there. -/
theorem mem_flushOf {b : Nat} (hb : b ≠ 0) :
  (b * BLKSIZE, m) ∈ flushOf m b
  := by
  rw [flushOf, if_neg hb]
  exact List.mem_cons_self

/-- The disk alone shows the file as the cache `s` does: its structure, its indirect block, and
the bytes up to its size in the blocks that exist. -/
structure Durable (s s' : Cache) (f : Nat) : Prop where
  view : s'.view = s.view
  struct : ∀ a, f ≤ a → a < f + FILESIZE → s'.disk a = s.view a
  size : fileSize s'.disk f = fileSize s.view f
  slots : slot s'.disk f = slot s.view f
  indirect : ind s.view f ≠ 0 → ∀ a, a / BLKSIZE = ind s.view f → s'.disk a = s.view a
  bytes : ∀ p < fileSize s.view f, dataBlock s.view f (p / BLKSIZE) ≠ 0 →
    byteAt s'.disk f p = byteAt s.view f p

/-- The flush of the block of `addr` from `s` to `s'` changes no other block of the disk, and
nothing that is cached. -/
structure Flushed (s s' : Cache) (addr : Nat) : Prop where
  view : s'.view = s.view
  mem : s'.mem = s.mem
  mapped : s'.mapped = s.mapped
  block : ∀ a, a / BLKSIZE = addr / BLKSIZE → s'.disk a = s.view a
  disk : ∀ a, a / BLKSIZE ≠ addr / BLKSIZE → s'.disk a = s.disk a

/-- A flush changes nothing that is cached. -/
theorem flushBlock_cached {a : Nat} (h : s.flushBlock a = .ok s') :
  s'.mem = s.mem ∧ s'.mapped = s.mapped
  := by
  unfold Cache.flushBlock at h
  split at h
  · cases h
  · split at h
    · cases h
      exact ⟨rfl, rfl⟩
    · cases h
      exact ⟨rfl, rfl⟩

/-- `flush_block` changes one block of the disk. -/
theorem flushBlock_flushed {a : Nat} (hs : Coherent s) (ha : a < DISKSIZE) :
  ∃ s', exec (flushBlock a) s = (.ok (), s') ∧ Flushed s s' a
  := by
  obtain ⟨s', heq, -, hview, hdisk, -⟩ := flushBlock_ok hs ha
  obtain ⟨hmem, hmapped⟩ := flushBlock_cached heq
  use s'
  constructor
  · rw [flushBlock, sync, exec, heq]
    rfl
  · constructor
    · exact hview
    · exact hmem
    · exact hmapped
    · intro x hx
      rw [hdisk, writeBack, copyBlock, if_pos hx]
    · intro x hx
      rw [hdisk, writeBack, copyBlock, if_neg hx]

/-- When `file_flush` has returned, the disk shows the file. -/
theorem durable_of_ran (hf : FileOk s.view f) (hran : Ran s s' s.view (fileFlushes s.view f)) :
  Durable s s' f
  := by
  have hall : ∀ e ∈ fileFlushes s.view f, e.2 = s.view := by
    have hone : ∀ b, ∀ e ∈ flushOf s.view b, e.2 = s.view := by
      intro b e he
      unfold flushOf at he
      split at he
      · exact absurd he List.not_mem_nil
      · rw [List.mem_singleton] at he
        rw [he]
    intro e he
    rcases List.mem_append.mp he with he | he
    · obtain ⟨i, -, he⟩ := List.mem_flatMap.mp he
      exact hone _ e he
    · rcases List.mem_cons.mp he with rfl | he
      · rfl
      · exact hone _ e he
  have hflushed : ∀ a, (∃ e ∈ fileFlushes s.view f, e.1 / BLKSIZE = a / BLKSIZE) →
      s'.disk a = s.view a := by
    intro a ha
    rw [hran.disk]
    exact writeBacks_of_mem s.disk hall (.inr ha)
  have hstruct : ∀ a, f ≤ a → a < f + FILESIZE → s'.disk a = s.view a := by
    intro a ha ha'
    apply hflushed
    refine ⟨(f, s.view), List.mem_append_right _ List.mem_cons_self, ?_⟩
    rw [hf.placed.home ha ha', home]
  have hind : ind s.view f ≠ 0 → ∀ a, a / BLKSIZE = ind s.view f → s'.disk a = s.view a := by
    intro hne a ha
    apply hflushed
    refine ⟨_, List.mem_append_right _ (List.mem_cons_of_mem _ (mem_flushOf hne)), ?_⟩
    rw [ha, Nat.mul_div_cancel _ (by decide)]
  have hslots : slot s'.disk f = slot s.view f := by
    apply slot_congr _ hind
    intro a ha
    exact hstruct a ha.inside.1 ha.inside.2
  refine ⟨hran.view, hstruct, ?_, hslots, hind, ?_⟩
  · apply fileSize_congr
    intro a ha ha'
    obtain ⟨h, h', -⟩ := f_size_inside ha ha'
    exact hstruct a h h'
  · intro p hp hne
    have haddr : byteAddr s'.disk f p = byteAddr s.view f p :=
      byteAddr_kept (fun t _ => congrFun hslots t) hne
    rw [byteAt, haddr]
    apply hflushed
    refine ⟨(dataBlock s.view f (p / BLKSIZE) * BLKSIZE, s.view), ?_, ?_⟩
    · apply List.mem_append_left
      rw [List.mem_flatMap]
      refine ⟨p / BLKSIZE, ?_, mem_flushOf hne⟩
      rw [List.mem_range']
      refine ⟨p / BLKSIZE, ?_, by omega⟩
      simp only [blockCount, BLKSIZE]
      omega
    · rw [byteAddr_div, Nat.mul_div_cancel _ (by decide)]

/-- In every good state that the server reaches, the disk shows a file as the cache does once
`file_flush` has returned.  A second `file_flush` changes nothing, and the flush of a block
changes no other block. -/
theorem fileFlush_durable (hs : Reached s) (hw : Owned s.view) (hf : Live s.view f) :
  (∃ s', exec (fileFlush f) s = (.ok (), s') ∧ Durable s s' f
      ∧ exec (fileFlush f) s' = (.ok (), s'))
    ∧ ∀ a < DISKSIZE, ∃ s', exec (flushBlock a) s = (.ok (), s') ∧ Flushed s s' a
  := by
  have hok := hw.fileOk hf
  constructor
  · obtain ⟨hrun, hflushes⟩ := runs_fileFlush hok (hw.size f hf)
    obtain ⟨s', heq, hran⟩ := exec_of_run hs.coherent hrun
    rw [hflushes] at hran
    refine ⟨s', heq, durable_of_ran hok hran, ?_⟩
    exact (exec_again (quiet_fileFlush f) hs.coherent heq).2 s' (Later.refl s')
  · intro a ha
    exact flushBlock_flushed hs.coherent ha

/-- The cache after a byte was written to the empty file of a small disk. -/
def tinyWritten : Cache :=
  (exec (fileWrite tinyFile [42] 0) (Cache.booted (tiny fourthFree (fun _ => 0)))).2

/-- The blocks of a small disk are in order after the write. -/
theorem owned_tinyWritten :
  Owned tinyWritten.view ∧ Live tinyWritten.view tinyFile
  := by
  have hw : Owned (tiny fourthFree (fun _ => 0)) := by
    apply owned_tiny
    decide
  have hf : Live (tiny fourthFree (fun _ => 0)) tinyFile := live_tiny.mpr (.inr rfl)
  have hreg : fileType (tiny fourthFree (fun _ => 0)) tinyFile ≠ FTYPE_DIR := by
    rw [fileType_tiny_file]
    decide
  have hends : (fileWrite tinyFile [42] 0).Ends valid
      (Cache.booted (tiny fourthFree (fun _ => 0))).view _ _ :=
    ends_fileWrite (n := 1) (by rw [view_booted]; exact hw.fileOk hf) (by decide) (by decide)
  have hreturns : (exec (fileWrite tinyFile [42] 0)
      (Cache.booted (tiny fourthFree (fun _ => 0)))).1.toBool = true := by decide +kernel
  rcases exec_of_ends (coherent_booted _) hends with ⟨r, s, heq, -, -, hwritten⟩ | ⟨⟨msg, s, heq⟩, -⟩
  · have hs : s = tinyWritten := by rw [tinyWritten, heq]
    rw [view_booted, hs] at hwritten
    have hsize : fileSize tinyWritten.view tinyFile ≤ MAXFILESIZE := by
      rw [hwritten.size, fileSize_tiny_file]
      decide
    use hwritten.moved.owned hw hf hreg hwritten.ok hsize
    exact (hwritten.moved.live_iff hw hf hreg).mpr hf
  · rw [heq] at hreturns
    cases hreturns

/-- The byte is on the disk when the file was flushed, and not before. -/
theorem fileFlush_durable_tiny :
  tinyWritten.view 16384 = 42 ∧ tinyWritten.disk 16384 = 0
    ∧ ∃ s', exec (fileFlush tinyFile) tinyWritten = (.ok (), s') ∧ Durable tinyWritten s' tinyFile
      ∧ s'.disk 16384 = 42 ∧ exec (fileFlush tinyFile) s' = (.ok (), s')
  := by
  obtain ⟨hw, hf⟩ := owned_tinyWritten
  have hreached : Reached tinyWritten := .step (.boot _) _
  obtain ⟨⟨s', hexec, hdurable, hagain⟩, -⟩ := fileFlush_durable hreached hw hf
  have hview : tinyWritten.view 16384 = 42 := by decide +kernel
  have hdisk : tinyWritten.disk 16384 = 0 := by decide +kernel
  have hblock : dataBlock tinyWritten.view tinyFile 0 = 4 := by decide +kernel
  have hsize : 0 < fileSize tinyWritten.view tinyFile := by decide +kernel
  use hview, hdisk, s', hexec, hdurable
  refine ⟨?_, hagain⟩
  have hbyte := hdurable.bytes 0 hsize (by rw [Nat.zero_div, hblock]; decide)
  have hslot : dataBlock s'.disk tinyFile 0 = 4 := by
    have hslots := congrFun hdurable.slots (.data 0)
    exact hslots.trans hblock
  rw [byteAt, byteAt, byteAddr, byteAddr, Nat.zero_div, hslot, hblock] at hbyte
  exact hbyte.trans hview

end Jos.Fs
