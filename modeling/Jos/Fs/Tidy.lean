import Jos.Fs.Truncate

/-!
# Tidy file systems

In a tidy file system files have no blocks beyond their ends, directories consist of whole
blocks, and the records of directories that are not in use are cleared.  A change of the
blocks of one file that is no directory keeps the tree of files, and a tidy file system tidy.
-/

namespace Jos.Fs

open Bytes Io

variable {m m' : Memory} {f g d e b : Nat}

/-! ### Records -/

/-- `e` is a record in a block of the directory `d`. -/
def Record (m : Memory) (d e : Nat) : Prop :=
  ∃ i j, i < fileSize m d / BLKSIZE ∧ dataBlock m d i ≠ 0 ∧ j < BLKFILES ∧ e = entryAddr m d i j

/-- A record with a name in a directory is a file. -/
theorem Record.live (h : Record m d e) (hd : Live m d) (hdir : fileType m d = FTYPE_DIR)
    (hname : m e ≠ 0) :
  Live m e
  := by
  obtain ⟨i, j, hi, hblock, hj, rfl⟩ := h
  exact .entry hd hdir hi hblock hj hname

theorem Record.mod (h : Record m d e) :
  e % FILESIZE = 0
  := by
  obtain ⟨i, j, -, -, -, rfl⟩ := h
  simp only [entryAddr, BLKSIZE, FILESIZE]
  omega

/-- The bytes of a record lie in a block of its directory. -/
theorem Record.block (h : Record m d e) {a : Nat} (ha : e ≤ a) (ha' : a < e + FILESIZE) :
  Owns m d (a / BLKSIZE) ∧ ∃ i, dataBlock m d i = a / BLKSIZE
  := by
  obtain ⟨i, j, -, hblock, hj, rfl⟩ := h
  have hdiv : a / BLKSIZE = dataBlock m d i := by
    simp only [entryAddr, BLKFILES, BLKSIZE, FILESIZE] at ha ha' hj ⊢
    omega
  rw [hdiv]
  exact ⟨owns_slot (s := .data i) hblock, i, rfl⟩

/-- Records start where blocks of records do, and so do files except for the root directory. -/
theorem Live.mod_or_root (h : Live m f) :
  f = s_root ∨ f % FILESIZE = 0
  := by
  rcases h.cases with rfl | ⟨hmod, -⟩
  · exact .inl rfl
  · exact .inr hmod

/-- The root directory lies in no block of a file. -/
theorem Owned.root_off (hm : Owned m) (hg : Live m g) :
  ¬ Owns m g (home s_root)
  := by
  intro ho
  apply hm.safe g hg _ ho
  change 1 < 2 + nbitblocks m
  omega

/-- A record is the structure of a file, or does not overlap it. -/
theorem Owned.record_off (hm : Owned m) (hf : Live m f) (hd : Live m d) (he : Record m d e)
    (hne : e ≠ f) {a : Nat} (ha : e ≤ a) (ha' : a < e + FILESIZE) :
  ¬ (f ≤ a ∧ a < f + FILESIZE)
  := by
  intro hin
  rcases hf.mod_or_root with rfl | hmod
  · apply hm.root_off hd
    rw [← Live.root (m := m).placed.home hin.1 hin.2]
    exact (he.block ha ha').1
  · have hmod' := he.mod
    simp only [FILESIZE] at ha' hmod hmod' hin
    omega

/-- The record has no blocks, and the size and type of an empty file. -/
def Blank (m : Memory) (e : Nat) : Prop :=
  ∀ a, f_size e ≤ a → a < f_indirect e + 4 → m a = 0

theorem Blank.fileSize (h : Blank m e) :
  fileSize m e = 0
  := by
  rw [Fs.fileSize, read32_eq_zero]
  · rfl
  · intro x hx hx'
    apply h x hx
    simp only [f_size, f_indirect] at hx' ⊢
    omega

theorem Blank.fileType (h : Blank m e) :
  fileType m e = FTYPE_REG
  := by
  rw [Fs.fileType, read32_eq_zero]
  · rfl
  · intro x hx hx'
    apply h x
    · simp only [f_size, f_type] at hx ⊢
      omega
    · simp only [f_type, f_indirect] at hx' ⊢
      omega

theorem Blank.slot (h : Blank m e) (s : Slot) :
  slot m e s = 0
  := by
  have hind : ind m e = 0 := by
    rw [ind, read32_eq_zero]
    · rfl
    · intro x hx hx'
      apply h x _ hx'
      simp only [f_size, f_indirect] at hx ⊢
      omega
  cases s with
  | indirect => exact hind
  | data i =>
      simp only [Fs.slot, dataBlock, hind, ne_eq, not_true_eq_false, and_false, if_false]
      split
      case isTrue hi =>
        rw [read32_eq_zero]
        · rfl
        · intro x hx hx'
          apply h x
          · simp only [f_size, f_direct] at hx ⊢
            omega
          · simp only [f_direct, f_indirect, NDIRECT] at hi hx' ⊢
            omega
      case isFalse => rfl

/-! ### Tidy file systems -/

/-- Every block belongs to one slot of one file, no file has blocks beyond its end, and
directories consist of whole blocks without holes. -/
structure Tidy (m : Memory) : Prop extends Owned m where
  trim : ∀ f, Live m f → Trim m f
  whole : ∀ d, Live m d → fileType m d = FTYPE_DIR → fileSize m d % BLKSIZE = 0
  full : ∀ d, Live m d → fileType m d = FTYPE_DIR → ∀ i < fileSize m d / BLKSIZE, dataBlock m d i ≠ 0

/-- A file has an indirect block only if the direct ones are not enough for its size. -/
def Snug (m : Memory) (f : Nat) : Prop :=
  ind m f ≠ 0 → NDIRECT < blockCount (fileSize m f)

/-- In addition, indirect blocks are needed, and the free records of directories are
cleared. -/
structure Neat (m : Memory) : Prop extends Tidy m where
  snug : ∀ f, Live m f → Snug m f
  blank : ∀ d e, Live m d → fileType m d = FTYPE_DIR → Record m d e → m e = 0 → Blank m e

/-- Every block that is in use and not reserved belongs to a file. -/
def Conserved (m : Memory) : Prop :=
  ∀ b < nblocks m, ¬ Reserved m b → isFree m b = false → ∃ f, Live m f ∧ Owns m f b

/-! ### Changes of one file -/

section Changes

variable (h : Moved m m' f) (hm : Owned m) (hf : Live m f) (hreg : Fs.fileType m f ≠ FTYPE_DIR)

include h hm hf

/-- The structure of the file is changed in its size and its slots only. -/
theorem Moved.struct_same {a : Nat} (ha : f ≤ a) (ha' : a < f + FILESIZE) (hmeta : ¬ InMeta f a) :
  m' a = m a
  := by
  have hok := hm.fileOk hf
  have hhome := hf.placed.home ha ha'
  apply h.frame a (hok.not_inBitmap ha ha') hmeta
  · rw [hhome]
    exact fun ho => hm.off_home hf ho
  · rw [hhome]
    exact hok.home_inUse

/-- The type of the file is kept. -/
theorem Moved.fileType_self :
  fileType m' f = fileType m f
  := by
  rw [fileType, fileType]
  apply read32_congr
  intro x hx hx'
  apply h.struct_same hm hf
  · simp only [f_type] at hx
    omega
  · simp only [f_type, FILESIZE] at hx' ⊢
    omega
  · simp only [InMeta, InSlots, f_type, f_size, f_direct, f_indirect] at hx hx' ⊢
    omega

include hreg

/-- The type of every file is kept. -/
theorem Moved.fileType (hg : Live m g) :
  fileType m' g = fileType m g
  := by
  rcases Classical.em (g = f) with rfl | hne
  · exact h.fileType_self hm hf
  · rw [Fs.fileType, Fs.fileType]
    apply read32_congr
    intro x hx hx'
    apply h.other_struct hm hf hg hne hreg
    · simp only [f_type] at hx
      omega
    · simp only [f_type, FILESIZE] at hx' ⊢
      omega

/-- The size of every other file is kept. -/
theorem Moved.other_size (hg : Live m g) (hne : g ≠ f) :
  fileSize m' g = fileSize m g
  := by
  apply fileSize_congr
  intro a ha ha'
  obtain ⟨hin, hin', -⟩ := f_size_inside ha ha'
  exact h.other_struct hm hf hg hne hreg hin hin'

/-- The records of a directory are changed in the structure of the file only. -/
theorem Moved.record_same (hd : Live m d) (hdir : Fs.fileType m d = FTYPE_DIR) (he : Record m d e)
    {a : Nat} (ha : e ≤ a) (ha' : a < e + FILESIZE) (hmeta : ¬ InMeta f a) :
  m' a = m a
  := by
  have hne : d ≠ f := by
    rintro rfl
    exact hreg hdir
  exact h.other_block hm hf hd hne (he.block ha ha').1 rfl hmeta

/-- The names of records are kept. -/
theorem Moved.name_same (hd : Live m d) (hdir : Fs.fileType m d = FTYPE_DIR) (he : Record m d e)
    {k : Nat} (hk : k < MAXNAMELEN) :
  m' (e + k) = m (e + k)
  := by
  simp only [MAXNAMELEN] at hk
  have hin : e + k < e + FILESIZE := by
    simp only [FILESIZE]
    omega
  apply h.record_same hm hf hreg hd hdir he (Nat.le_add_right _ _) hin
  intro hmeta
  rcases Classical.em (e = f) with rfl | hne
  · simp only [InMeta, InSlots, f_size, f_direct, f_indirect] at hmeta
    omega
  · exact hm.record_off hf hd he hne (Nat.le_add_right _ _) hin hmeta.inside

theorem Moved.first_same (hd : Live m d) (hdir : Fs.fileType m d = FTYPE_DIR)
    (he : Record m d e) :
  m' e = m e
  := h.name_same hm hf hreg hd hdir he (k := 0) (by decide)

/-- The records of a directory are kept. -/
theorem Moved.record_iff (hd : Live m d) (hdir : Fs.fileType m d = FTYPE_DIR) :
  Record m' d e ↔ Record m d e
  := by
  have hne : d ≠ f := by
    rintro rfl
    exact hreg hdir
  have hslot := h.other_slot hm hf hd hne hreg
  have hblock : ∀ i, dataBlock m' d i = dataBlock m d i := fun i => congrFun hslot (.data i)
  simp only [Record, h.other_size hm hf hreg hd hne, hblock, entryAddr]

/-- The files are the same. -/
theorem Moved.live_iff :
  Live m' g ↔ Live m g
  := by
  constructor
  · intro hg
    induction hg with
    | root => exact .root
    | @entry d i j hd hdir hi hblock hj hname ih =>
        rw [h.fileType hm hf hreg ih] at hdir
        have he : Record m d (entryAddr m' d i j) :=
          (h.record_iff hm hf hreg ih hdir).mp ⟨i, j, hi, hblock, hj, rfl⟩
        apply he.live ih hdir
        rw [← h.first_same hm hf hreg ih hdir he]
        exact hname
  · intro hg
    induction hg with
    | root => exact .root
    | @entry d i j hd hdir hi hblock hj hname ih =>
        have he : Record m d (entryAddr m d i j) := ⟨i, j, hi, hblock, hj, rfl⟩
        have he' := (h.record_iff hm hf hreg hd hdir).mpr he
        apply he'.live ih (by rw [h.fileType hm hf hreg hd]; exact hdir)
        rw [h.first_same hm hf hreg hd hdir he]
        exact hname

omit hreg in
/-- A block of another file is neither given back nor taken. -/
theorem Moved.other_inUse (hg : Live m g) (hne : g ≠ f) (hb : Owns m g b) :
  isFree m' b = false ∧ ¬ Owns m' f b
  := by
  have huse := hm.inUse g hg b hb
  constructor
  · rw [← Bool.not_eq_true, h.bits]
    rintro ⟨hfree | hown, -⟩
    · rw [huse] at hfree
      cases hfree
    · exact hne (hm.owner hg hf hb hown)
  · intro ho
    rcases h.taken b ho with ho | hfree
    · exact hne (hm.owner hg hf hb ho)
    · rw [huse] at hfree
      cases hfree

/-- Every block still belongs to one slot of one file. -/
theorem Moved.owned (hok : FileOk m' f) (hsize : fileSize m' f ≤ MAXFILESIZE) :
  Owned m'
  := by
  have hslot : ∀ g, Live m g → g ≠ f → slot m' g = slot m g :=
    fun g hg hne => h.other_slot hm hf hg hne hreg
  have hown : ∀ g, Live m g → g ≠ f → ∀ b, Owns m' g b ↔ Owns m g b := by
    intro g hg hne b
    rw [Owns, Owns, hslot g hg hne]
  constructor
  · exact hok.bitmap
  · intro g hg b hb
    rw [h.live_iff hm hf hreg] at hg
    rcases Classical.em (g = f) with rfl | hne
    · exact hok.lt b hb
    · rw [h.nblocks]
      exact hm.lt g hg b ((hown g hg hne b).mp hb)
  · intro g hg b hb
    rw [h.live_iff hm hf hreg] at hg
    rcases Classical.em (g = f) with rfl | hne
    · exact hok.inUse b hb
    · exact (h.other_inUse hm hf hg hne ((hown g hg hne b).mp hb)).1
  · intro g hg b hb
    rw [h.live_iff hm hf hreg] at hg
    rcases Classical.em (g = f) with rfl | hne
    · exact hok.safe b hb
    · rw [Reserved.congr h.nblocks]
      exact hm.safe g hg b ((hown g hg hne b).mp hb)
  · intro g g' s t hg hg' hs heq
    rw [h.live_iff hm hf hreg] at hg hg'
    have ho := owns_slot hs
    have ho' := owns_slot (m := m') (f := g') (s := t) (by rw [← heq]; exact hs)
    rw [← heq] at ho'
    rcases Classical.em (g = f) with rfl | hne
    · rcases Classical.em (g' = g) with rfl | hne'
      · exact ⟨rfl, hok.inj s t hs heq⟩
      · exact absurd ho (h.other_inUse hm hf hg' hne' ((hown g' hg' hne' _).mp ho')).2
    · rcases Classical.em (g' = f) with rfl | hne'
      · exact absurd ho' (h.other_inUse hm hf hg hne ((hown g hg hne _).mp ho)).2
      · rw [hslot g hg hne] at hs heq
        rw [hslot g' hg' hne'] at heq
        exact hm.unique g g' s t hg hg' hs heq
  · intro g hg
    rw [h.live_iff hm hf hreg] at hg
    rcases Classical.em (g = f) with rfl | hne
    · exact hsize
    · rw [h.other_size hm hf hreg hg hne]
      exact hm.size g hg

/-- Blocks in use still belong to files. -/
theorem Moved.conserved (hc : Conserved m) :
  Conserved m'
  := by
  intro b hb hres huse
  rw [h.nblocks] at hb
  rw [Reserved.congr h.nblocks] at hres
  rcases Classical.em (Owns m' f b) with ho | ho
  · exact ⟨f, (h.live_iff hm hf hreg).mpr hf, ho⟩
  · rw [← Bool.not_eq_true, h.bits] at huse
    have hnot : ¬ (isFree m b = true ∨ Owns m f b) := fun hor => huse ⟨hor, ho⟩
    obtain ⟨g, hg, hown⟩ := hc b hb hres (Bool.eq_false_iff.mpr (fun hfree => hnot (.inl hfree)))
    have hne : g ≠ f := by
      rintro rfl
      exact hnot (.inr hown)
    refine ⟨g, (h.live_iff hm hf hreg).mpr hg, ?_⟩
    rw [Owns, h.other_slot hm hf hg hne hreg]
    exact hown

omit hm

/-- The file system is still tidy. -/
theorem Moved.tidy (hm : Tidy m) (hok : FileOk m' f) (hsize : fileSize m' f ≤ MAXFILESIZE)
    (htrim : Trim m' f) :
  Tidy m'
  := by
  have hlive := fun g => h.live_iff hm.toOwned hf hreg (g := g)
  refine ⟨h.owned hm.toOwned hf hreg hok hsize, ?_, ?_, ?_⟩
  · intro g hg
    rw [hlive] at hg
    rcases Classical.em (g = f) with rfl | hne
    · exact htrim
    · have hslot := h.other_slot hm.toOwned hf hg hne hreg
      intro i hi
      have hblock : dataBlock m' g i = dataBlock m g i := congrFun hslot (.data i)
      rw [hblock] at hi
      rw [h.other_size hm.toOwned hf hreg hg hne]
      exact hm.trim g hg i hi
  · intro d hd hdir
    rw [hlive] at hd
    rw [h.fileType hm.toOwned hf hreg hd] at hdir
    have hne : d ≠ f := by
      rintro rfl
      exact hreg hdir
    rw [h.other_size hm.toOwned hf hreg hd hne]
    exact hm.whole d hd hdir
  · intro d hd hdir i hi
    rw [hlive] at hd
    rw [h.fileType hm.toOwned hf hreg hd] at hdir
    have hne : d ≠ f := by
      rintro rfl
      exact hreg hdir
    have hslot := h.other_slot hm.toOwned hf hd hne hreg
    have hblock : dataBlock m' d i = dataBlock m d i := congrFun hslot (.data i)
    rw [h.other_size hm.toOwned hf hreg hd hne] at hi
    rw [hblock]
    exact hm.full d hd hdir i hi

/-- The file system is still neat. -/
theorem Moved.neat (hm : Neat m) (hok : FileOk m' f) (hsize : fileSize m' f ≤ MAXFILESIZE)
    (htrim : Trim m' f) (hsnug : Snug m' f) :
  Neat m'
  := by
  have hlive := fun g => h.live_iff hm.toOwned hf hreg (g := g)
  refine ⟨h.tidy hf hreg hm.toTidy hok hsize htrim, ?_, ?_⟩
  · intro g hg
    rw [hlive] at hg
    rcases Classical.em (g = f) with rfl | hne
    · exact hsnug
    · have hslot := h.other_slot hm.toOwned hf hg hne hreg
      have hind : ind m' g = ind m g := congrFun hslot .indirect
      rw [Snug, hind, h.other_size hm.toOwned hf hreg hg hne]
      exact hm.snug g hg
  · intro d e hd hdir he hname
    rw [hlive] at hd
    rw [h.fileType hm.toOwned hf hreg hd] at hdir
    rw [h.record_iff hm.toOwned hf hreg hd hdir] at he
    rw [h.first_same hm.toOwned hf hreg hd hdir he] at hname
    have hblank := hm.blank d e hd hdir he hname
    have hne : e ≠ f := by
      rintro rfl
      cases hf with
      | root =>
          have hmod := he.mod
          exact absurd hmod (by decide)
      | entry _ _ _ _ _ hn => exact hn hname
    intro a ha ha'
    have hin : e ≤ a ∧ a < e + FILESIZE := by
      simp only [f_size, f_indirect, FILESIZE] at ha ha' ⊢
      omega
    rw [h.record_same hm.toOwned hf hreg hd hdir he hin.1 hin.2]
    · exact hblank a ha ha'
    · exact fun hmeta => hm.record_off hf hd he hne hin.1 hin.2 hmeta.inside

end Changes

end Jos.Fs
