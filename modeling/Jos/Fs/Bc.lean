import Jos.Fs.Layout

/-!
# The block cache

The file server accesses the disk through its address space.  A block is loaded by
`bc_pgfault` when it is first accessed, the hardware marks its page dirty when it is written
to, and `flush_block` writes a dirty block back.  `exec` is this meaning of programs.

The view of a cache is the memory that a program sees, whether it is loaded yet or not.
A run of a program on the view alone is matched by a run on the cache.
-/

namespace Jos.Fs

open Bytes Io

variable {α : Type}

/-! ### The cache -/

/-- The disk, and the part of the address space of the file server that maps it.  The log
holds the contents of the disk after each `ide_write`, the last one first. -/
structure Cache where
  disk : Memory
  mem : Memory
  mapped : Nat → Bool
  dirty : Nat → Bool
  log : List Memory

/-- `dst` with block `b` taken from `src`. -/
def copyBlock (dst src : Memory) (b : Nat) : Memory :=
  fun a => if a / BLKSIZE = b then src a else dst a

namespace Cache

/-- The memory that programs see. -/
def view (s : Cache) : Memory :=
  fun a => if s.mapped (a / BLKSIZE) then s.mem a else s.disk a

/-- Allocate a page for block `b`, read the block, and mark the page as not dirty. -/
def load (s : Cache) (b : Nat) : Cache :=
  { s with
    mem := copyBlock s.mem s.disk b
    mapped := fun c => c == b || s.mapped c
    dirty := fun c => c != b && s.dirty c }

/-- A write to the bytes from `lo` to `hi`, which leaves the memory `m`. -/
def store (s : Cache) (lo hi : Nat) (m : Memory) : Cache :=
  { s with
    mem := m
    dirty := fun c => c == lo / BLKSIZE || c == hi / BLKSIZE || s.dirty c }

/-- Write block `b` to the disk, and mark its page as not dirty. -/
def writeOut (s : Cache) (b : Nat) : Cache :=
  { s with
    disk := copyBlock s.disk s.mem b
    dirty := fun c => c != b && s.dirty c
    log := copyBlock s.disk s.mem b :: s.log }

/-- `block_is_free`, as the fault handler calls it.  Its own accesses may fault. -/
def blockIsFree (touch : Nat → Cache → Except String Cache) (b : Nat) (s : Cache) :
    Except String (Bool × Cache) := do
  let s ← touch s_nblocks s
  if nblocks s.mem ≤ b then
    pure (false, s)
  else do
    let s ← touch (bitmapWord b) s
    pure (isFree s.mem b, s)

/-- The fault handler for an access to `va`.  There is memory for the page, and the disk
transfers succeed. -/
def bcPgfault (touch : Nat → Cache → Except String Cache) (va : Nat) (s : Cache) :
    Except String Cache :=
  if DISKSIZE ≤ va then
    .error "page fault in FS: eip %08x, va %08x, err %04x"
  else do
    let s ← touch s_nblocks s
    if nblocks s.mem ≤ va / BLKSIZE then
      .error "reading non-existent block %08x"
    else do
      let (free, s) ← blockIsFree touch (va / BLKSIZE) (s.load (va / BLKSIZE))
      if free then
        .error "reading free block %08x"
      else
        pure s

/-- An access to `va` with room for `n` nested faults on the exception stack. -/
def touch : Nat → Nat → Cache → Except String Cache
  | 0, _, _ => .error "exception stack overflow"
  | n + 1, va, s => if s.mapped (va / BLKSIZE) then pure s else bcPgfault (touch n) va s

/-- An access to `va`.  The super block and the first block of the bitmap are mapped once the
server has started, so that at most two faults are nested. -/
def access (va : Nat) (s : Cache) : Except String Cache :=
  touch 3 va s

/-- An access to the word at `va`. -/
def accessWord (va : Nat) (s : Cache) : Except String Cache := do
  let s ← access va s
  access (va + 3) s

/-- Write the block of `addr` to the disk if it is mapped and dirty. -/
def flushBlock (addr : Nat) (s : Cache) : Except String Cache :=
  if DISKSIZE ≤ addr then
    .error "flush_block of bad va %08x"
  else if s.mapped (addr / BLKSIZE) && s.dirty (addr / BLKSIZE) then
    pure (s.writeOut (addr / BLKSIZE))
  else
    pure s

end Cache

/-- The run of a program of the file server on its cache. -/
def exec : Io α → Cache → Except String α × Cache
  | done a, s => (.ok a, s)
  | .panic msg, s => (.error msg, s)
  | load8 a k, s => match s.access a with
    | .ok s => exec (k (s.mem a)) s
    | .error msg => (.error msg, s)
  | load32 a k, s => match s.accessWord a with
    | .ok s => exec (k (read32 s.mem a)) s
    | .error msg => (.error msg, s)
  | store8 a b k, s => match s.access a with
    | .ok s => exec k (s.store a a (write8 s.mem a b))
    | .error msg => (.error msg, s)
  | store32 a w k, s => match s.accessWord a with
    | .ok s => exec k (s.store a (a + 3) (write32 s.mem a w))
    | .error msg => (.error msg, s)
  | flush a k, s => match s.flushBlock a with
    | .ok s => exec k s
    | .error msg => (.error msg, s)

/-! ### Loading blocks -/

/-- The cache can be used: its bookkeeping blocks are mapped, and blocks that are mapped and
not dirty agree with the disk. -/
structure Coherent (s : Cache) : Prop where
  super : s.mapped 1 = true
  bitmap : s.mapped 2 = true
  clean : ∀ a, s.mapped (a / BLKSIZE) = true → s.dirty (a / BLKSIZE) = false → s.mem a = s.disk a

/-- `s'` is `s` after some blocks were loaded. -/
structure Loaded (s s' : Cache) : Prop where
  coherent : Coherent s → Coherent s'
  view : s'.view = s.view
  disk : s'.disk = s.disk
  log : s'.log = s.log
  mapped : ∀ b, s.mapped b = true → s'.mapped b = true
  dirty : ∀ b, s'.mapped b = true → s'.dirty b = true → s.mapped b = true ∧ s.dirty b = true

theorem Loaded.refl (s : Cache) :
  Loaded s s
  := ⟨id, rfl, rfl, rfl, fun _ => id, fun _ => And.intro⟩

theorem Loaded.trans {s s' s'' : Cache} (h : Loaded s s') (h' : Loaded s' s'') :
  Loaded s s''
  where
  coherent hs := h'.coherent (h.coherent hs)
  view := h'.view.trans h.view
  disk := h'.disk.trans h.disk
  log := h'.log.trans h.log
  mapped b hb := h'.mapped b (h.mapped b hb)
  dirty b hb hd := by
    obtain ⟨hb, hd⟩ := h'.dirty b hb hd
    exact h.dirty b hb hd

/-- The cache when the server has started: the super block and the first block of the bitmap
are loaded. -/
def Cache.booted (disk : Memory) : Cache where
  disk := disk
  mem := disk
  mapped b := b == 1 || b == 2
  dirty _ := false
  log := []

theorem coherent_booted (disk : Memory) :
  Coherent (Cache.booted disk)
  := ⟨rfl, rfl, fun _ _ _ => rfl⟩

theorem view_booted (disk : Memory) :
  (Cache.booted disk).view = disk
  := by
  funext a
  unfold Cache.view
  split
  · rfl
  · rfl

theorem view_of_mapped {s : Cache} {a : Nat} (h : s.mapped (a / BLKSIZE) = true) :
  s.view a = s.mem a
  := by
  rw [Cache.view, if_pos h]

theorem view_of_not_mapped {s : Cache} {a : Nat} (h : s.mapped (a / BLKSIZE) = false) :
  s.view a = s.disk a
  := by
  rw [Cache.view, h, if_neg Bool.false_ne_true]

/-- The view is not changed when a block is loaded. -/
theorem loaded_load {s : Cache} {b : Nat} (hb : s.mapped b = false) :
  Loaded s (s.load b)
  := by
  constructor
  case coherent =>
    intro hs
    constructor
    · simp only [Cache.load, hs.super, Bool.or_true]
    · simp only [Cache.load, hs.bitmap, Bool.or_true]
    · intro a ha hdirty
      simp only [Cache.load, copyBlock] at ha hdirty ⊢
      by_cases hab : a / BLKSIZE = b
      · rw [if_pos hab]
      · rw [if_neg hab]
        apply hs.clean
        · simpa [hab] using ha
        · simpa [hab] using hdirty
  case view =>
    funext a
    by_cases hab : a / BLKSIZE = b
    · rw [view_of_mapped (by simp [Cache.load, hab]), view_of_not_mapped (by rw [hab]; exact hb)]
      simp only [Cache.load, copyBlock, if_pos hab]
    · simp only [Cache.view, Cache.load, copyBlock, if_neg hab, beq_eq_false_iff_ne.mpr hab,
        Bool.false_or]
  case disk => rfl
  case log => rfl
  case mapped =>
    intro c hc
    simp only [Cache.load, hc, Bool.or_true]
  case dirty =>
    intro c hc hd
    simp only [Cache.load, Bool.or_eq_true, Bool.and_eq_true, beq_iff_eq, bne_iff_ne] at hc hd
    rcases hc with hc | hc
    · exact absurd hc hd.1
    · exact ⟨hc, hd.2⟩

/-- A mapped block is not touched by the fault handler. -/
theorem touch_of_mapped {s : Cache} {n a : Nat} (h : s.mapped (a / BLKSIZE) = true) :
  Cache.touch (n + 1) a s = .ok s
  := by
  rw [Cache.touch, if_pos h]
  rfl

/-- A block of memory is part of the view of a cache that has it mapped. -/
theorem nblocks_view {s : Cache} (h : s.mapped 1 = true) :
  nblocks s.mem = nblocks s.view
  := by
  unfold nblocks
  congr 1
  apply read32_congr
  intro x hx hx'
  rw [view_of_mapped]
  rw [show x / BLKSIZE = 1 by simp only [s_nblocks, Fs.super, BLKSIZE] at hx hx' ⊢; omega]
  exact h

/-- The block of the bitmap with the bit of a block. -/
theorem bitmapWord_div (b : Nat) :
  bitmapWord b / BLKSIZE = 2 + b / BLKBITSIZE
  := by
  simp only [bitmapWord, Fs.bitmap, BLKSIZE, BLKBITSIZE]
  omega

theorem isFree_view {s : Cache} {b : Nat} (hs : s.mapped 1 = true)
    (h : s.mapped (2 + b / BLKBITSIZE) = true) :
  isFree s.mem b = isFree s.view b
  := by
  have hword : read32 s.mem (bitmapWord b) = read32 s.view (bitmapWord b) := by
    apply read32_congr
    intro x hx hx'
    rw [view_of_mapped]
    rw [show x / BLKSIZE = bitmapWord b / BLKSIZE by
      simp only [bitmapWord, Fs.bitmap, BLKSIZE] at hx hx' ⊢
      omega]
    rw [bitmapWord_div]
    exact h
  rw [isFree, isFree, hword, nblocks_view hs]

theorem inUse_iff {m : Memory} {b : Nat} :
  inUse m b = true ↔ b < nblocks m ∧ isFree m b = false
  := by
  simp [inUse]

theorem except_ok_bind {ε β : Type} (a : α) (f : α → Except ε β) :
  (Except.ok a >>= f) = f a
  := rfl

theorem except_bind_eq_ok {ε β : Type} {x : Except ε α} {f : α → Except ε β} {b : β}
    (h : (x >>= f) = .ok b) :
  ∃ a, x = .ok a ∧ f a = .ok b
  := by
  cases x with
  | ok a => exact ⟨a, rfl, h⟩
  | error e => cases h

/-- The fault handler loads a block that is in use, if it can access the bit of the block. -/
theorem bcPgfault_ok {s : Cache} {touch : Nat → Cache → Except String Cache} {a : Nat}
    (hs : Coherent s) (ha : a < DISKSIZE) (hmapped : s.mapped (a / BLKSIZE) = false)
    (huse : inUse s.view (a / BLKSIZE) = true)
    (hsuper : ∀ s, Coherent s → touch s_nblocks s = .ok s)
    (hbit : ∀ s', Loaded s s' → Coherent s' →
      ∃ s'', touch (bitmapWord (a / BLKSIZE)) s' = .ok s'' ∧ Loaded s' s''
        ∧ s''.mapped (2 + a / BLKSIZE / BLKBITSIZE) = true) :
  ∃ s', Cache.bcPgfault touch a s = .ok s' ∧ Loaded s s' ∧ s'.mapped (a / BLKSIZE) = true
  := by
  rw [inUse_iff] at huse
  have hload := loaded_load hmapped
  have hn := nblocks_view hs.super
  have hn' := nblocks_view (hload.coherent hs).super
  rw [hload.view] at hn'
  obtain ⟨s', heq, hloaded, hbitmap⟩ := hbit _ hload (hload.coherent hs)
  use s'
  constructor
  · unfold Cache.bcPgfault
    rw [if_neg (by omega), hsuper _ hs, except_ok_bind, if_neg (by omega)]
    unfold Cache.blockIsFree
    rw [hsuper _ (hload.coherent hs), except_ok_bind, if_neg (by omega), heq, except_ok_bind,
      isFree_view (hloaded.coherent (hload.coherent hs)).super hbitmap, hloaded.view, hload.view, huse.2]
    rfl
  · constructor
    · exact hload.trans hloaded
    · apply hloaded.mapped
      simp [Cache.load]

/-- An access to a valid address loads its block. -/
theorem access_ok {s : Cache} {a : Nat} (hs : Coherent s) (ha : valid s.view a = true) :
  ∃ s', s.access a = .ok s' ∧ Loaded s s' ∧ s'.mapped (a / BLKSIZE) = true
  := by
  have hnb : s_nblocks / BLKSIZE = 1 := rfl
  simp only [valid, Bool.and_eq_true, decide_eq_true_eq] at ha
  obtain ⟨⟨hlt, huse⟩, hbits⟩ := ha
  -- the bit of a block of the bitmap is in the first block of the bitmap
  have hsmall : (2 + a / BLKSIZE / BLKBITSIZE) / BLKBITSIZE = 0 := by
    simp only [DISKSIZE, BLKSIZE, BLKBITSIZE] at hlt ⊢
    omega
  have hinner : ∀ s', Loaded s s' → Coherent s' →
      ∃ s'', Cache.touch 2 (bitmapWord (a / BLKSIZE)) s' = .ok s'' ∧ Loaded s' s''
        ∧ s''.mapped (2 + a / BLKSIZE / BLKBITSIZE) = true := by
    intro s' hs' hc
    have hdiv := bitmapWord_div (a / BLKSIZE)
    rw [← hdiv]
    by_cases hm : s'.mapped (bitmapWord (a / BLKSIZE) / BLKSIZE) = true
    · exact ⟨s', touch_of_mapped hm, Loaded.refl s', hm⟩
    · rw [Cache.touch, if_neg hm]
      apply bcPgfault_ok hc
      · simp only [bitmapWord, Fs.bitmap, DISKSIZE, BLKSIZE] at hlt ⊢
        omega
      · exact Bool.eq_false_iff.mpr hm
      · rw [hdiv, hs'.view]
        exact hbits
      · intro t ht
        apply touch_of_mapped
        rw [hnb]
        exact ht.super
      · intro t ht htc
        rw [hdiv, hsmall]
        refine ⟨t, touch_of_mapped ?_, Loaded.refl t, htc.bitmap⟩
        rw [bitmapWord_div, hsmall]
        exact htc.bitmap
  by_cases hm : s.mapped (a / BLKSIZE) = true
  · exact ⟨s, touch_of_mapped hm, Loaded.refl s, hm⟩
  · rw [Cache.access, Cache.touch, if_neg hm]
    apply bcPgfault_ok hs hlt (Bool.eq_false_iff.mpr hm) huse
    · intro t ht
      apply touch_of_mapped
      rw [hnb]
      exact ht.super
    · exact hinner

/-- An access to a word at valid addresses loads its blocks. -/
theorem accessWord_ok {s : Cache} {a : Nat} (hs : Coherent s) (ha : okWord valid s.view a = true) :
  ∃ s', s.accessWord a = .ok s' ∧ Loaded s s' ∧ s'.mapped (a / BLKSIZE) = true
    ∧ s'.mapped ((a + 3) / BLKSIZE) = true
  := by
  simp only [okWord, Bool.and_eq_true] at ha
  obtain ⟨s₁, heq₁, hl₁, hm₁⟩ := access_ok hs ha.1
  rw [← hl₁.view] at ha
  obtain ⟨s₂, heq₂, hl₂, hm₂⟩ := access_ok (hl₁.coherent hs) ha.2
  refine ⟨s₂, ?_, hl₁.trans hl₂, hl₂.mapped _ hm₁, hm₂⟩
  unfold Cache.accessWord
  rw [heq₁]
  exact heq₂

/-! ### Storing and flushing -/

/-- A write to mapped pages writes to the view. -/
theorem view_store {s : Cache} {lo hi : Nat} {m m' : Memory}
    (hlo : s.mapped (lo / BLKSIZE) = true) (hhi : s.mapped (hi / BLKSIZE) = true)
    (hmem : ∀ x, s.mapped (x / BLKSIZE) = true → s.mem x = s.view x → m x = m' x)
    (hother : ∀ x, x / BLKSIZE ≠ lo / BLKSIZE → x / BLKSIZE ≠ hi / BLKSIZE → m' x = s.view x) :
  (s.store lo hi m).view = m'
  := by
  funext x
  by_cases hx : s.mapped (x / BLKSIZE) = true
  · rw [view_of_mapped (by exact hx)]
    exact hmem x hx (view_of_mapped hx).symm
  · rw [Bool.not_eq_true] at hx
    rw [view_of_not_mapped (by exact hx), hother, view_of_not_mapped hx]
    · rfl
    · intro heq
      rw [heq, hlo] at hx
      cases hx
    · intro heq
      rw [heq, hhi] at hx
      cases hx

theorem coherent_store {s : Cache} {lo hi : Nat} {m : Memory} (hs : Coherent s)
    (h : ∀ x, x / BLKSIZE ≠ lo / BLKSIZE → x / BLKSIZE ≠ hi / BLKSIZE → m x = s.mem x) :
  Coherent (s.store lo hi m)
  := by
  constructor
  · exact hs.super
  · exact hs.bitmap
  · intro a ha hdirty
    simp only [Cache.store, Bool.or_eq_false_iff, beq_eq_false_iff_ne] at hdirty ⊢
    rw [h a hdirty.1.1 hdirty.1.2]
    exact hs.clean a ha hdirty.2

/-- The disk after block `a / BLKSIZE` was written back from a memory. -/
def writeBack (disk : Memory) (e : Nat × Memory) : Memory :=
  copyBlock disk e.2 (e.1 / BLKSIZE)

/-- A flush writes the block of the view back, whether it is dirty or not. -/
theorem flushBlock_ok {s : Cache} {a : Nat} (hs : Coherent s) (ha : a < DISKSIZE) :
  ∃ s', s.flushBlock a = .ok s' ∧ Coherent s' ∧ s'.view = s.view
    ∧ s'.disk = writeBack s.disk (a, s.view)
    ∧ (s'.log = s.log ∨ s'.log = writeBack s.disk (a, s.view) :: s.log)
  := by
  unfold Cache.flushBlock
  rw [if_neg (by omega)]
  by_cases h : s.mapped (a / BLKSIZE) = true ∧ s.dirty (a / BLKSIZE) = true
  · have hdisk : copyBlock s.disk s.mem (a / BLKSIZE) = writeBack s.disk (a, s.view) := by
      funext x
      simp only [writeBack, copyBlock]
      by_cases hx : x / BLKSIZE = a / BLKSIZE
      · rw [if_pos hx, if_pos hx, view_of_mapped (by rw [hx]; exact h.1)]
      · rw [if_neg hx, if_neg hx]
    rw [if_pos (by simp [h])]
    refine ⟨_, rfl, ⟨hs.super, hs.bitmap, ?_⟩, ?_, hdisk, .inr ?_⟩
    · intro x hx hdirty
      simp only [Cache.writeOut, copyBlock] at hx hdirty ⊢
      by_cases hxa : x / BLKSIZE = a / BLKSIZE
      · rw [if_pos hxa]
      · rw [if_neg hxa]
        apply hs.clean x hx
        simpa [hxa] using hdirty
    · funext x
      by_cases hx : s.mapped (x / BLKSIZE) = true
      · rw [view_of_mapped (by exact hx), view_of_mapped hx]
        rfl
      · rw [Bool.not_eq_true] at hx
        rw [view_of_not_mapped (by exact hx), view_of_not_mapped hx]
        simp only [Cache.writeOut, copyBlock]
        rw [if_neg]
        intro heq
        rw [heq, h.1] at hx
        cases hx
    · rw [← hdisk]
      rfl
  · rw [if_neg (by simpa using h)]
    refine ⟨s, rfl, hs, rfl, ?_, .inl rfl⟩
    funext x
    simp only [writeBack, copyBlock]
    by_cases hx : x / BLKSIZE = a / BLKSIZE
    · rw [if_pos hx]
      by_cases hm : s.mapped (x / BLKSIZE) = true
      · rw [view_of_mapped hm]
        symm
        apply hs.clean x hm
        rw [hx] at hm ⊢
        rw [← Bool.not_eq_true]
        exact fun hd => h ⟨hm, hd⟩
      · rw [Bool.not_eq_true] at hm
        rw [view_of_not_mapped hm]
    · rw [if_neg hx]

/-- A byte is written to the view. -/
theorem store8_view {s : Cache} {x : Nat} (hs : Coherent s) (hm : s.mapped (x / BLKSIZE) = true)
    (b : Byte) :
  (s.store x x (write8 s.mem x b)).view = write8 s.view x b
    ∧ Coherent (s.store x x (write8 s.mem x b))
  := by
  constructor
  · apply view_store hm hm
    · intro y _ hy
      rw [write8, write8, hy]
    · intro y hy _
      rw [write8, if_neg (by rintro rfl; exact hy rfl)]
  · apply coherent_store hs
    intro y hy _
    rw [write8, if_neg (by rintro rfl; exact hy rfl)]

/-- A word is written to the view. -/
theorem store32_view {s : Cache} {x : Nat} (hs : Coherent s) (hm : s.mapped (x / BLKSIZE) = true)
    (hm' : s.mapped ((x + 3) / BLKSIZE) = true) (w : Word) :
  (s.store x (x + 3) (write32 s.mem x w)).view = write32 s.view x w
    ∧ Coherent (s.store x (x + 3) (write32 s.mem x w))
  := by
  have hout : ∀ y, y / BLKSIZE ≠ x / BLKSIZE → y / BLKSIZE ≠ (x + 3) / BLKSIZE →
      y < x ∨ x + 4 ≤ y := by
    intro y hy hy'
    simp only [BLKSIZE] at hy hy'
    omega
  constructor
  · apply view_store hm hm'
    · intro y _ hy
      rw [write32, write32, hy]
    · intro y hy hy'
      rw [write32_of_disjoint _ _ (hout y hy hy')]
  · apply coherent_store hs
    intro y hy hy'
    rw [write32_of_disjoint _ _ (hout y hy hy')]

/-- A word of the view that is mapped. -/
theorem read32_view {s : Cache} {x : Nat} (hm : s.mapped (x / BLKSIZE) = true)
    (hm' : s.mapped ((x + 3) / BLKSIZE) = true) :
  read32 s.mem x = read32 s.view x
  := by
  apply read32_congr
  intro y hy hy'
  rw [view_of_mapped]
  rcases (show y / BLKSIZE = x / BLKSIZE ∨ y / BLKSIZE = (x + 3) / BLKSIZE by
    simp only [BLKSIZE]; omega) with hyx | hyx
  · rw [hyx]
    exact hm
  · rw [hyx]
    exact hm'

end Jos.Fs
