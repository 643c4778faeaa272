import Jos.Fs.Contents

/-!
# The directory tree

The files of a file system are the root directory and the entries with a name in the
directories among its files.  When every block belongs to one slot of one file, all files
are good, their structures do not overlap, and a change of one of them keeps the blocks of
the others.
-/

namespace Jos.Fs

open Bytes Io

variable {m m' : Memory} {f g d b : Nat}

/-- The type of a file. -/
def fileType (m : Memory) (f : Nat) : Word :=
  read32 m (f_type f)

/-- The address of entry `j` in block `i` of a directory. -/
def entryAddr (m : Memory) (d i j : Nat) : Nat :=
  dataBlock m d i * BLKSIZE + FILESIZE * j

/-- The files that can be reached from the root directory. -/
inductive Live (m : Memory) : Nat → Prop where
  | root : Live m s_root
  | entry {d i j : Nat} (hd : Live m d) (hdir : fileType m d = FTYPE_DIR)
      (hi : i < fileSize m d / BLKSIZE) (hblock : dataBlock m d i ≠ 0) (hj : j < BLKFILES)
      (hname : m (entryAddr m d i j) ≠ 0) : Live m (entryAddr m d i j)

/-- Every block belongs to one slot of one file, and the sizes are in range. -/
structure Owned (m : Memory) : Prop where
  bitmap : BitmapOk m
  lt : ∀ f, Live m f → ∀ b, Owns m f b → b < nblocks m
  inUse : ∀ f, Live m f → ∀ b, Owns m f b → isFree m b = false
  safe : ∀ f, Live m f → ∀ b, Owns m f b → ¬ Reserved m b
  unique : ∀ f g s t, Live m f → Live m g → slot m f s ≠ 0 → slot m f s = slot m g t →
    f = g ∧ s = t
  size : ∀ f, Live m f → fileSize m f ≤ MAXFILESIZE

/-! ### Where files lie -/

theorem entryAddr_home {i j : Nat} (hj : j < BLKFILES) :
  home (entryAddr m d i j) = dataBlock m d i
  := by
  simp only [home, entryAddr, BLKFILES, BLKSIZE, FILESIZE] at hj ⊢
  omega

/-- A file is the root directory, or lies in a block of a directory. -/
theorem Live.cases (h : Live m f) :
  f = s_root ∨ (f % FILESIZE = 0 ∧ ∃ d i, Live m d ∧ fileType m d = FTYPE_DIR
    ∧ i < fileSize m d / BLKSIZE ∧ dataBlock m d i ≠ 0 ∧ dataBlock m d i = home f)
  := by
  cases h with
  | root => exact .inl rfl
  | @entry d i j hd hdir hi hblock hj hname =>
      right
      constructor
      · simp only [entryAddr, BLKSIZE, FILESIZE]
        omega
      · exact ⟨d, i, hd, hdir, hi, hblock, (entryAddr_home hj).symm⟩

theorem Live.placed (h : Live m f) :
  Placed f
  := by
  rcases h.cases with rfl | ⟨hmod, -⟩
  · constructor
    · decide
    · decide
  · simp only [FILESIZE] at hmod
    constructor
    · omega
    · simp only [FILESIZE, BLKSIZE]
      omega

/-- No file lies in a block of its own. -/
theorem Owned.off_home (hm : Owned m) (h : Live m f) :
  ¬ Owns m f (home f)
  := by
  induction h with
  | root =>
      intro hown
      apply hm.safe _ .root _ hown
      change 1 < 2 + nbitblocks m
      omega
  | @entry d i j hd hdir hi hblock hj hname ih =>
      rintro ⟨hne, s, hs⟩
      rw [entryAddr_home hj] at hs hne
      -- the block belongs to the directory, which then is the file itself
      have hlive := Live.entry hd hdir hi hblock hj hname
      have heq := hm.unique _ d s (.data i) hlive hd (by rw [hs]; exact hne) hs
      apply ih
      rw [← heq.1, entryAddr_home hj]
      rw [← heq.1] at hs hne
      rw [← heq.1]
      exact ⟨hne, s, hs⟩

/-- All files are good. -/
theorem Owned.fileOk (hm : Owned m) (h : Live m f) :
  FileOk m f
  := by
  have hhome : home f < nblocks m ∧ isFree m (home f) = false
      ∧ (f = s_root ∨ ¬ Reserved m (home f)) := by
    rcases h.cases with rfl | ⟨-, d, i, hd, -, -, hne, hi⟩
    · have hres : Reserved m (home s_root) := by
        change 1 < 2 + nbitblocks m
        omega
      exact ⟨hm.bitmap.reserved_lt hres, hm.bitmap.reserved _ hres, .inl rfl⟩
    · rw [← hi]
      have hown := owns_slot (s := .data i) hne
      exact ⟨hm.lt d hd _ hown, hm.inUse d hd _ hown, .inr (hm.safe d hd _ hown)⟩
  constructor
  · exact hm.bitmap
  · exact h.placed
  · exact hhome.1
  · exact hhome.2.1
  · exact hhome.2.2
  · exact hm.lt f h
  · exact hm.inUse f h
  · exact hm.safe f h
  · intro b hb
    rintro rfl
    exact hm.off_home h hb
  · intro s t hs heq
    exact (hm.unique f f s t h h hs heq).2

/-- Different files own different blocks. -/
theorem Owned.owner (hm : Owned m) (hf : Live m f) (hg : Live m g) (h : Owns m f b)
    (h' : Owns m g b) :
  f = g
  := by
  obtain ⟨hne, s, hs⟩ := h
  obtain ⟨-, t, ht⟩ := h'
  exact (hm.unique f g s t hf hg (by rw [hs]; exact hne) (hs.trans ht.symm)).1

/-- The structures of different files do not overlap. -/
theorem Owned.disjoint (hm : Owned m) (hf : Live m f) (hg : Live m g) (hne : g ≠ f) {a : Nat}
    (h : f ≤ a ∧ a < f + FILESIZE) :
  ¬ (g ≤ a ∧ a < g + FILESIZE)
  := by
  intro h'
  have hhome : home f = home g := by
    rw [← (hf.placed).home h.1 h.2, (hg.placed).home h'.1 h'.2]
  have hroot : home s_root = 1 := rfl
  have hres : ∀ d i, Live m d → dataBlock m d i ≠ 0 → dataBlock m d i ≠ 1 := by
    intro d i hd hd' heq
    apply hm.safe d hd _ (owns_slot (s := .data i) hd')
    change Reserved m (dataBlock m d i)
    rw [heq, Reserved]
    omega
  rcases hf.cases with rfl | ⟨hfmod, d, i, hd, -, -, hi, hdi⟩
  · rcases hg.cases with rfl | ⟨-, e, j, he, -, -, hj, hej⟩
    · exact hne rfl
    · exact hres e j he hj (by rw [hej, ← hhome, hroot])
  · rcases hg.cases with rfl | ⟨hgmod, -⟩
    · exact hres d i hd hi (by rw [hdi, hhome, hroot])
    · simp only [FILESIZE] at hfmod hgmod h h'
      omega

theorem InMeta.inside {a : Nat} (h : InMeta f a) :
  f ≤ a ∧ a < f + FILESIZE
  := by
  simp only [InMeta, InSlots, f_size, f_direct, f_indirect, FILESIZE] at h ⊢
  omega

/-! ### Changes of one file -/

/-- The blocks of other files are not changed, except for the structure of `f`. -/
theorem Moved.other_block (h : Moved m m' f) (hm : Owned m) (hf : Live m f) (hg : Live m g)
    (hne : g ≠ f) (hb : Owns m g b) {a : Nat} (ha : a / BLKSIZE = b) (hmeta : ¬ InMeta f a) :
  m' a = m a
  := by
  have hok := hm.fileOk hg
  apply h.frame a (hok.owned_not_inBitmap hb ha) hmeta
  · rw [ha]
    exact fun ho => hne (hm.owner hg hf hb ho)
  · rw [ha]
    exact hok.inUse b hb

/-- The structures of other files are not changed when `f` is no directory. -/
theorem Moved.other_struct (h : Moved m m' f) (hm : Owned m) (hf : Live m f) (hg : Live m g)
    (hne : g ≠ f) (hreg : fileType m f ≠ FTYPE_DIR) {a : Nat} (ha : g ≤ a)
    (ha' : a < g + FILESIZE) :
  m' a = m a
  := by
  have hok := hm.fileOk hg
  have hhome := hg.placed.home ha ha'
  apply h.frame a (hok.not_inBitmap ha ha')
  · exact fun hmeta => hm.disjoint hf hg hne hmeta.inside ⟨ha, ha'⟩
  · rw [hhome]
    rcases hg.cases with rfl | ⟨-, d, i, hd, hdir, -, hi, hdi⟩
    · intro ho
      apply hm.safe f hf _ ho
      change 1 < 2 + nbitblocks m
      omega
    · intro ho
      rw [← hdi] at ho
      have heq := hm.owner hf hd ho (owns_slot (s := .data i) hi)
      rw [heq] at hreg
      exact hreg hdir
  · rw [hhome]
    exact hok.home_inUse

/-- The slots of other files are not changed when `f` is no directory. -/
theorem Moved.other_slot (h : Moved m m' f) (hm : Owned m) (hf : Live m f) (hg : Live m g)
    (hne : g ≠ f) (hreg : fileType m f ≠ FTYPE_DIR) :
  slot m' g = slot m g
  := by
  have hown : ∀ a, ind m g ≠ 0 → a / BLKSIZE = ind m g → ¬ InMeta f a := by
    intro a hind ha hmeta
    have hhome := hf.placed.home hmeta.inside.1 hmeta.inside.2
    -- the indirect block of a file holds no structures
    rcases hf.cases with rfl | ⟨-, d, i, hd, -, -, hi, hdi⟩
    · apply hm.safe g hg _ (owns_slot (s := .indirect) hind)
      change Reserved m (ind m g)
      rw [← ha, hhome]
      change 1 < 2 + nbitblocks m
      omega
    · have heq := hm.unique d g (.data i) .indirect hd hg hi (by
        change dataBlock m d i = ind m g
        rw [hdi, ← hhome, ha])
      cases heq.2
  apply slot_congr
  · intro a ha
    exact h.other_struct hm hf hg hne hreg ha.inside.1 ha.inside.2
  · intro hind a ha
    exact h.other_block hm hf hg hne (owns_slot (s := .indirect) hind) ha (hown a hind ha)

/-! ### A small disk -/

/-- A disk with 35 blocks.  The root directory has block 3, and in it there is an empty file
`a`.  The bitmap and the other blocks are given. -/
def tiny (bits rest : Memory) : Memory :=
  fun a =>
    if a = 4096 then 0xae else if a = 4097 then 0x30
    else if a = 4098 then 0x05 else if a = 4099 then 0x4a
    else if a = 4100 then 35 else if a = 4104 then SLASH
    else if a = 4233 then 0x10 else if a = 4236 then 1 else if a = 4240 then 3
    else if 8192 ≤ a ∧ a < 12288 then bits a
    else if a = 12288 then 0x61
    else if 16384 ≤ a then rest a
    else 0

variable {bits rest : Memory}

/-- The only file on the small disk. -/
def tinyFile : Nat := 3 * BLKSIZE

theorem tiny_zero {a : Nat} (h : (4241 ≤ a ∧ a < 8192) ∨ (12289 ≤ a ∧ a < 16384)) :
  tiny bits rest a = 0
  := by
  unfold tiny
  repeat rw [if_neg (by omega)]

theorem nblocks_tiny :
  nblocks (tiny bits rest) = 35
  := by
  simp [nblocks, s_nblocks, super, BLKSIZE, read32, tiny]

theorem fileSize_tiny_root :
  fileSize (tiny bits rest) s_root = BLKSIZE
  := by
  simp [fileSize, f_size, s_root, super, BLKSIZE, read32, tiny]

theorem fileType_tiny_root :
  fileType (tiny bits rest) s_root = FTYPE_DIR
  := by
  simp [fileType, f_type, s_root, super, BLKSIZE, FTYPE_DIR, read32, tiny]

/-- The root directory of the small disk has one block. -/
theorem slot_tiny_root (s : Slot) :
  slot (tiny bits rest) s_root s = if s = .data 0 then 3 else 0
  := by
  have hind : ind (tiny bits rest) s_root = 0 := by
    rw [ind, read32_eq_zero]
    · rfl
    · intro x hx hx'
      apply tiny_zero
      simp only [f_indirect, s_root, super, BLKSIZE] at hx hx'
      omega
  cases s with
  | indirect => exact hind
  | data i =>
      simp only [slot, dataBlock, hind, ne_eq, not_true_eq_false, and_false, if_false]
      split
      case isTrue h =>
        rcases Nat.eq_zero_or_pos i with rfl | hi
        · simp [f_direct, s_root, super, BLKSIZE, read32, tiny]
        · rw [if_neg (by rintro ⟨⟩; omega), read32_eq_zero]
          · rfl
          · intro x hx hx'
            apply tiny_zero
            simp only [f_direct, s_root, super, BLKSIZE, NDIRECT] at h hx hx'
            omega
      case isFalse h =>
        rw [if_neg]
        rintro ⟨⟩
        exact h (by decide)

/-- The file on the small disk is empty. -/
theorem read32_tiny_file {a : Nat} (h : tinyFile < a) (h' : a + 4 ≤ tinyFile + FILESIZE) :
  read32 (tiny bits rest) a = 0
  := by
  apply read32_eq_zero
  intro x hx hx'
  apply tiny_zero
  simp only [tinyFile, BLKSIZE, FILESIZE] at h h'
  omega

theorem slot_tiny_file (s : Slot) :
  slot (tiny bits rest) tinyFile s = 0
  := by
  have hind : ind (tiny bits rest) tinyFile = 0 := by
    rw [ind, read32_tiny_file]
    · rfl
    · simp only [f_indirect]
      omega
    · simp only [f_indirect, FILESIZE]
      omega
  cases s with
  | indirect => exact hind
  | data i =>
      simp only [slot, dataBlock, hind, ne_eq, not_true_eq_false, and_false, if_false]
      split
      case isTrue h =>
        rw [read32_tiny_file]
        · rfl
        · simp only [f_direct]
          omega
        · simp only [f_direct, FILESIZE, NDIRECT] at h ⊢
          omega
      case isFalse => rfl

theorem fileSize_tiny_file :
  fileSize (tiny bits rest) tinyFile = 0
  := by
  rw [fileSize, read32_tiny_file]
  · rfl
  · simp only [f_size]
    omega
  · simp only [f_size, FILESIZE]
    omega

theorem fileType_tiny_file :
  fileType (tiny bits rest) tinyFile = FTYPE_REG
  := by
  rw [fileType, read32_tiny_file]
  · rfl
  · simp only [f_type]
    omega
  · simp only [f_type, FILESIZE]
    omega

/-- The files on the small disk. -/
theorem live_tiny :
  Live (tiny bits rest) f ↔ f = s_root ∨ f = tinyFile
  := by
  have hzero : dataBlock (tiny bits rest) s_root 0 = 3 := slot_tiny_root (.data 0)
  constructor
  · intro h
    induction h with
    | root => exact .inl rfl
    | @entry d i j hd hdir hi hblock hj hname ih =>
        rcases ih with rfl | rfl
        · have hi' : i = 0 := by
            rw [fileSize_tiny_root, Nat.div_self (by decide)] at hi
            omega
          rw [hi'] at hname ⊢
          right
          rw [entryAddr, hzero] at hname ⊢
          rcases Nat.eq_zero_or_pos j with rfl | hj'
          · rfl
          · apply absurd _ hname
            apply tiny_zero
            simp only [BLKFILES, FILESIZE, BLKSIZE] at hj ⊢
            omega
        · rw [fileType_tiny_file] at hdir
          exact absurd hdir (by decide)
  · rintro (rfl | rfl)
    · exact .root
    · have haddr : entryAddr (tiny bits rest) s_root 0 0 = tinyFile := by
        rw [entryAddr, hzero]
        rfl
      rw [← haddr]
      apply Live.entry .root fileType_tiny_root
      · rw [fileSize_tiny_root]
        decide
      · rw [hzero]
        decide
      · decide
      · rw [haddr]
        simp [tiny, tinyFile, BLKSIZE]

/-- The small disk is good when its bitmap marks the first four blocks as in use. -/
theorem owned_tiny (hbits : ∀ b < 4, isFree (tiny bits rest) b = false) :
  Owned (tiny bits rest)
  := by
  have hres : ∀ b, Reserved (tiny bits rest) b ↔ b < 3 := by
    intro b
    rw [Reserved, nbitblocks, nblocks_tiny]
    simp only [BLKBITSIZE, BLKSIZE]
  have howns : ∀ f, Live (tiny bits rest) f → ∀ s, slot (tiny bits rest) f s ≠ 0 →
      f = s_root ∧ s = .data 0 ∧ slot (tiny bits rest) f s = 3 := by
    intro f hf s hs
    rcases live_tiny.mp hf with rfl | rfl
    · rw [slot_tiny_root] at hs ⊢
      split at hs
      case isTrue h =>
        rw [if_pos h]
        exact ⟨rfl, h, rfl⟩
      case isFalse => exact absurd rfl hs
    · exact absurd (slot_tiny_file s) hs
  have hthree : ∀ f, Live (tiny bits rest) f → ∀ b, Owns (tiny bits rest) f b → b = 3 := by
    rintro f hf b ⟨hne, s, rfl⟩
    exact (howns f hf s hne).2.2
  constructor
  · constructor
    · rw [nblocks_tiny]
      decide
    · rw [nblocks_tiny]
      decide
    · intro b hb
      rw [hres] at hb
      exact hbits b (by omega)
  · intro f hf b hb
    rw [hthree f hf b hb, nblocks_tiny]
    decide
  · intro f hf b hb
    rw [hthree f hf b hb]
    exact hbits 3 (by decide)
  · intro f hf b hb
    rw [hthree f hf b hb, hres]
    decide
  · intro f g s t hf hg hs heq
    have h := howns f hf s hs
    have h' := howns g hg t (by rw [← heq]; exact hs)
    exact ⟨h.1.trans h'.1.symm, h.2.1.trans h'.2.1.symm⟩
  · intro f hf
    rcases live_tiny.mp hf with rfl | rfl
    · rw [fileSize_tiny_root]
      decide
    · rw [fileSize_tiny_file]
      exact Nat.zero_le _

end Jos.Fs
