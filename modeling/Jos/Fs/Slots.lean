import Jos.Fs.Alloc

/-!
# The blocks of a file

A `struct File` has slots for the numbers of its blocks: ten in the structure, one for the
indirect block, and one in the indirect block for each further block.  A file is good when
its slots hold different blocks in use, none of them reserved and none the home of the
structure itself.  A change of a file in which only its own blocks and blocks that were free
are touched keeps everything else.
-/

namespace Jos.Fs

open Bytes Io

variable {m m' m'' : Memory} {f i b : Nat}

/-! ### Slots -/

/-- The slots of a file. -/
inductive Slot where
  /-- The slot of the `i`-th block. -/
  | data (i : Nat)
  /-- The slot of the indirect block. -/
  | indirect
  deriving DecidableEq

/-- The block that a `struct File` lies in. -/
def home (f : Nat) : Nat :=
  f / BLKSIZE

/-- The indirect block of a file. -/
def ind (m : Memory) (f : Nat) : Nat :=
  (read32 m (f_indirect f)).toNat

/-- Where the slot of the `i`-th block lies. -/
def slotAddr (m : Memory) (f i : Nat) : Nat :=
  if i < NDIRECT then f_direct f i else ind m f * BLKSIZE + 4 * (i - NDIRECT)

/-- The `i`-th block of a file. -/
def dataBlock (m : Memory) (f i : Nat) : Nat :=
  if i < NDIRECT then (read32 m (f_direct f i)).toNat
  else if i < NINDIRECT + NDIRECT ∧ ind m f ≠ 0 then
    (read32 m (ind m f * BLKSIZE + 4 * (i - NDIRECT))).toNat
  else 0

/-- The number in a slot. -/
def slot (m : Memory) (f : Nat) : Slot → Nat
  | .data i => dataBlock m f i
  | .indirect => ind m f

/-- Block `b` belongs to `f`. -/
def Owns (m : Memory) (f b : Nat) : Prop :=
  b ≠ 0 ∧ ∃ s, slot m f s = b

/-- The addresses of the slots in the structure. -/
def InSlots (f a : Nat) : Prop :=
  f_direct f 0 ≤ a ∧ a < f_indirect f + 4

/-- The addresses of the size and the slots in the structure. -/
def InMeta (f a : Nat) : Prop :=
  (f_size f ≤ a ∧ a < f_size f + 4) ∨ InSlots f a

theorem owns_slot {s : Slot} (h : slot m f s ≠ 0) :
  Owns m f (slot m f s)
  := ⟨h, s, rfl⟩

/-- The slots depend on the structure and the indirect block only. -/
theorem slot_congr (h : ∀ a, InSlots f a → m' a = m a)
    (hind : ind m f ≠ 0 → ∀ a, a / BLKSIZE = ind m f → m' a = m a) :
  slot m' f = slot m f
  := by
  have hi : ind m' f = ind m f := by
    rw [ind, ind]
    congr 1
    apply read32_congr
    intro x hx hx'
    apply h
    simp only [InSlots, f_direct, f_indirect] at hx hx' ⊢
    omega
  funext s
  cases s with
  | indirect => exact hi
  | data i =>
      simp only [slot, dataBlock, hi]
      split
      case isTrue hlt =>
        congr 1
        apply read32_congr
        intro x hx hx'
        apply h
        simp only [InSlots, f_direct, f_indirect, NDIRECT] at hlt hx hx' ⊢
        omega
      case isFalse hge =>
        split
        case isTrue hin =>
          congr 1
          apply read32_congr
          intro x hx hx'
          apply hind hin.2
          simp only [NDIRECT, NINDIRECT, BLKSIZE] at hge hin hx hx' ⊢
          omega
        case isFalse => rfl

/-! ### Good files -/

/-- The structure lies inside one block. -/
structure Placed (f : Nat) : Prop where
  aligned : f % 4 = 0
  inside : f % BLKSIZE + FILESIZE ≤ BLKSIZE

/-- The fields of a structure lie in its block. -/
theorem Placed.home (hf : Placed f) {a : Nat} (h : f ≤ a) (h' : a < f + FILESIZE) :
  a / BLKSIZE = Fs.home f
  := by
  have hin := hf.inside
  simp only [BLKSIZE, FILESIZE, Fs.home] at hin h' ⊢
  omega

theorem Placed.word (hf : Placed f) {k : Nat} (hk : k % 4 = 0) (h : k < FILESIZE) :
  (f + k) / BLKSIZE = Fs.home f ∧ (f + k) % BLKSIZE + 4 ≤ BLKSIZE
  := by
  have hin := hf.inside
  have hal := hf.aligned
  simp only [BLKSIZE, FILESIZE, Fs.home] at hin h ⊢
  omega

/-- The structure lies in a block in use, its slots hold different blocks in use, and none of
them is needed for something else. -/
structure FileOk (m : Memory) (f : Nat) : Prop where
  bitmap : BitmapOk m
  placed : Placed f
  home_lt : home f < nblocks m
  home_inUse : isFree m (home f) = false
  home_safe : f = s_root ∨ ¬ Reserved m (home f)
  lt : ∀ b, Owns m f b → b < nblocks m
  inUse : ∀ b, Owns m f b → isFree m b = false
  safe : ∀ b, Owns m f b → ¬ Reserved m b
  off_home : ∀ b, Owns m f b → b ≠ home f
  inj : ∀ s t, slot m f s ≠ 0 → slot m f s = slot m f t → s = t

/-- The words of the structure are valid. -/
theorem FileOk.okWord_field (hf : FileOk m f) {k : Nat} (hk : k % 4 = 0) (h : k < FILESIZE) :
  okWord valid m (f + k) = true
  := by
  obtain ⟨hhome, hin⟩ := hf.placed.word hk h
  apply hf.bitmap.okWord
  · rw [hhome]
    exact hf.home_lt
  · rw [hhome]
    exact hf.home_inUse
  · exact hin

theorem FileOk.okWord_f_indirect (hf : FileOk m f) :
  okWord valid m (f_indirect f) = true
  := hf.okWord_field (by decide) (by decide)

theorem FileOk.okWord_f_size (hf : FileOk m f) :
  okWord valid m (f_size f) = true
  := hf.okWord_field (by decide) (by decide)

/-- The addresses of a block of the file are valid. -/
theorem FileOk.valid_owned (hf : FileOk m f) (hb : Owns m f b) {a : Nat} (ha : a / BLKSIZE = b) :
  valid m a = true
  := by
  apply hf.bitmap.valid
  · rw [ha]
    exact hf.lt b hb
  · rw [ha]
    exact hf.inUse b hb

/-- A slot is valid. -/
theorem FileOk.okWord_slotAddr (hf : FileOk m f) (hi : i < NINDIRECT + NDIRECT)
    (hind : NDIRECT ≤ i → ind m f ≠ 0) :
  okWord valid m (slotAddr m f i) = true
  := by
  unfold slotAddr
  split
  case isTrue h =>
    rw [f_direct, Nat.add_assoc]
    simp only [NDIRECT] at h
    apply hf.okWord_field
    · omega
    · simp only [FILESIZE]
      omega
  case isFalse h =>
    have hown := owns_slot (s := .indirect) (hind (Nat.le_of_not_lt h))
    have hdiv : (ind m f * BLKSIZE + 4 * (i - NDIRECT)) / BLKSIZE = ind m f := by
      simp only [NDIRECT, NINDIRECT, BLKSIZE] at hi ⊢
      omega
    apply hf.bitmap.okWord
    · rw [hdiv]
      exact hf.lt _ hown
    · rw [hdiv]
      exact hf.inUse _ hown
    · simp only [NDIRECT, NINDIRECT, BLKSIZE] at hi ⊢
      omega

/-- The number in a slot, read from its address. -/
theorem read32_slotAddr (hi : i < NINDIRECT + NDIRECT) (hind : NDIRECT ≤ i → ind m f ≠ 0) :
  (read32 m (slotAddr m f i)).toNat = dataBlock m f i
  := by
  unfold slotAddr dataBlock
  split
  case isTrue => rfl
  case isFalse h =>
    rw [if_pos]
    exact ⟨hi, hind (Nat.le_of_not_lt h)⟩

/-- The structure of a file is not in the bitmap. -/
theorem FileOk.not_inBitmap (hf : FileOk m f) {a : Nat} (h : f ≤ a) (h' : a < f + FILESIZE) :
  ¬ InBitmap m a
  := by
  unfold InBitmap
  rw [hf.placed.home h h']
  rcases hf.home_safe with rfl | hsafe
  · intro hres
    exact absurd hres.1 (by decide)
  · exact fun hres => hsafe hres.2

/-- The blocks of a file are not in the bitmap. -/
theorem FileOk.owned_not_inBitmap (hf : FileOk m f) (hb : Owns m f b) {a : Nat}
    (ha : a / BLKSIZE = b) :
  ¬ InBitmap m a
  := by
  unfold InBitmap
  rw [ha]
  exact fun h => hf.safe b hb h.2

/-- The super block is not changed through a file. -/
theorem FileOk.super_off (hf : FileOk m f) {a : Nat} (h : s_nblocks ≤ a)
    (h' : a < s_nblocks + 4) :
  ¬ InMeta f a ∧ ∀ b, Owns m f b → a / BLKSIZE ≠ b
  := by
  have hdiv : a / BLKSIZE = 1 := by
    simp only [s_nblocks, super, BLKSIZE] at h h' ⊢
    omega
  constructor
  · intro hmeta
    have hin : f ≤ a ∧ a < f + FILESIZE := by
      simp only [InMeta, InSlots, f_size, f_direct, f_indirect, FILESIZE] at hmeta ⊢
      omega
    rcases hf.home_safe with rfl | hsafe
    · simp only [s_nblocks, s_root] at h' hin
      omega
    · apply hsafe
      rw [← hf.placed.home hin.1 hin.2, hdiv, Reserved]
      omega
  · rintro b hb rfl
    apply hf.safe _ hb
    rw [hdiv, Reserved]
    omega

/-! ### Changes of a file -/

/-- A change of `f` that takes free blocks, gives own blocks back, and touches own and free
blocks only. -/
structure Moved (m m' : Memory) (f : Nat) : Prop where
  nblocks : nblocks m' = nblocks m
  frame : ∀ a, ¬ InBitmap m a → ¬ InMeta f a → ¬ Owns m f (a / BLKSIZE) →
    isFree m (a / BLKSIZE) = false → m' a = m a
  bits : ∀ b, isFree m' b = true ↔ (isFree m b = true ∨ Owns m f b) ∧ ¬ Owns m' f b
  taken : ∀ b, Owns m' f b → Owns m f b ∨ isFree m b = true

theorem Moved.refl (hf : FileOk m f) :
  Moved m m f
  where
  nblocks := rfl
  frame _ _ _ _ _ := rfl
  bits b := by
    have huse := hf.inUse b
    constructor
    · intro h
      refine ⟨.inl h, fun ho => ?_⟩
      rw [huse ho] at h
      cases h
    · rintro ⟨h | h, hn⟩
      · exact h
      · exact absurd h hn
  taken _ h := .inl h

theorem Moved.trans (h : Moved m m' f) (h' : Moved m' m'' f) :
  Moved m m'' f
  where
  nblocks := h'.nblocks.trans h.nblocks
  frame a hbit hmeta hown hfree := by
    rw [h'.frame a, h.frame a hbit hmeta hown hfree]
    · rw [InBitmap.congr h.nblocks]
      exact hbit
    · exact hmeta
    · intro ho
      rcases h.taken _ ho with ho | ho
      · exact hown ho
      · rw [hfree] at ho
        cases ho
    · rw [← Bool.not_eq_true, h.bits]
      rintro ⟨ho | ho, -⟩
      · rw [hfree] at ho
        cases ho
      · exact hown ho
  bits b := by
    rw [h'.bits, h.bits]
    constructor
    · rintro ⟨⟨hb, -⟩ | hb, hn⟩
      · exact ⟨hb, hn⟩
      · rcases h.taken b hb with hb | hb
        · exact ⟨.inr hb, hn⟩
        · exact ⟨.inl hb, hn⟩
    · rintro ⟨hb, hn⟩
      refine ⟨?_, hn⟩
      rcases Classical.em (Owns m' f b) with ho | ho
      · exact .inr ho
      · exact .inl ⟨hb, ho⟩
  taken b hb := by
    rcases h'.taken b hb with hb | hb
    · exact h.taken b hb
    · rcases (h.bits b).mp hb with ⟨hb | hb, -⟩
      · exact .inr hb
      · exact .inl hb

/-- A change of `f` in which slots are filled with free blocks. -/
structure Grown (m m' : Memory) (f : Nat) : Prop where
  nblocks : nblocks m' = nblocks m
  same : ∀ a, ¬ InBitmap m a → ¬ InSlots f a → (ind m' f ≠ 0 → a / BLKSIZE ≠ ind m' f) →
    m' a = m a
  kept : ∀ s, slot m f s ≠ 0 → slot m' f s = slot m f s
  bits : ∀ b, isFree m' b = true ↔ isFree m b = true ∧ ¬ Owns m' f b
  taken : ∀ b, Owns m' f b → Owns m f b ∨ isFree m b = true

theorem Grown.owns (h : Grown m m' f) (hb : Owns m f b) :
  Owns m' f b
  := by
  obtain ⟨hne, s, hs⟩ := hb
  rw [← hs] at hne
  exact ⟨by rw [← hs]; exact hne, s, by rw [h.kept s hne, hs]⟩

theorem Grown.refl (hf : FileOk m f) :
  Grown m m f
  where
  nblocks := rfl
  same _ _ _ _ := rfl
  kept _ _ := rfl
  bits b := by
    constructor
    · intro h
      refine ⟨h, fun ho => ?_⟩
      rw [hf.inUse b ho] at h
      cases h
    · exact fun h => h.1
  taken _ h := .inl h

theorem Grown.trans (h : Grown m m' f) (h' : Grown m' m'' f) :
  Grown m m'' f
  where
  nblocks := h'.nblocks.trans h.nblocks
  same a hbit hslots hind := by
    rw [h'.same a _ hslots hind, h.same a hbit hslots]
    · intro hne
      have hkept := h'.kept .indirect hne
      simp only [slot] at hkept
      rw [← hkept]
      apply hind
      rw [hkept]
      exact hne
    · rw [InBitmap.congr h.nblocks]
      exact hbit
  kept s hs := by
    have hk := h.kept s hs
    rw [h'.kept s (by rw [hk]; exact hs), hk]
  bits b := by
    rw [h'.bits, h.bits]
    constructor
    · rintro ⟨⟨hb, -⟩, hn⟩
      exact ⟨hb, hn⟩
    · rintro ⟨hb, hn⟩
      exact ⟨⟨hb, fun ho => hn (h'.owns ho)⟩, hn⟩
  taken b hb := by
    rcases h'.taken b hb with hb | hb
    · exact h.taken b hb
    · exact .inr ((h.bits b).mp hb).1

/-- Filling slots is a change of the file. -/
theorem Grown.moved (h : Grown m m' f) :
  Moved m m' f
  where
  nblocks := h.nblocks
  frame a hbit hmeta hown hfree := by
    apply h.same a hbit (fun hs => hmeta (.inr hs))
    intro hne heq
    rcases h.taken _ (owns_slot (s := .indirect) hne) with ho | ho
    · exact hown (heq ▸ ho)
    · simp only [slot] at ho
      rw [← heq, hfree] at ho
      cases ho
  bits b := by
    rw [h.bits]
    constructor
    · rintro ⟨hb, hn⟩
      exact ⟨.inl hb, hn⟩
    · rintro ⟨hb | hb, hn⟩
      · exact ⟨hb, hn⟩
      · exact absurd (h.owns hb) hn
  taken := h.taken

/-- Blocks that are free are neither reserved nor owned. -/
theorem FileOk.free_ne (hf : FileOk m f) (hfree : isFree m b = true) :
  ¬ Reserved m b ∧ ¬ Owns m f b ∧ b ≠ home f ∧ b ≠ 0
  := by
  have hres : ¬ Reserved m b := by
    intro h
    rw [hf.bitmap.reserved b h] at hfree
    cases hfree
  refine ⟨hres, ?_, ?_, ?_⟩
  · intro h
    rw [hf.inUse b h] at hfree
    cases hfree
  · rintro rfl
    rw [hf.home_inUse] at hfree
    cases hfree
  · rintro rfl
    apply hres
    rw [Reserved]
    omega

/-- A file stays good when a free block is put in an empty slot. -/
theorem grown_fill {t : Slot} (hf : FileOk m f) (hfree : isFree m b = true) (hempty : slot m f t = 0)
    (hslot : ∀ s, slot m' f s = if s = t then b else slot m f s)
    (hbits : ∀ c, isFree m' c = (isFree m c && c != b)) (hn : nblocks m' = nblocks m)
    (hsame : ∀ a, ¬ InBitmap m a → ¬ InSlots f a → (ind m' f ≠ 0 → a / BLKSIZE ≠ ind m' f) →
      m' a = m a) :
  FileOk m' f ∧ Grown m m' f
  := by
  obtain ⟨hres, hown, hhome, hne⟩ := hf.free_ne hfree
  have howns : ∀ c, Owns m' f c ↔ c = b ∨ Owns m f c := by
    intro c
    constructor
    · rintro ⟨hc, s, hs⟩
      rw [hslot] at hs
      split at hs
      · exact .inl hs.symm
      · exact .inr ⟨hc, s, hs⟩
    · rintro (rfl | ⟨hc, s, hs⟩)
      · exact ⟨hne, t, by rw [hslot, if_pos rfl]⟩
      · refine ⟨hc, s, ?_⟩
        rw [hslot, if_neg, hs]
        rintro rfl
        exact hc (hs.symm.trans hempty)
  constructor
  · constructor
    case bitmap =>
      refine ⟨by rw [hn]; exact hf.bitmap.small, by rw [hn]; exact hf.bitmap.large, ?_⟩
      intro c hc
      rw [Reserved.congr hn] at hc
      rw [hbits, hf.bitmap.reserved c hc]
      rfl
    case placed => exact hf.placed
    case home_lt =>
      rw [hn]
      exact hf.home_lt
    case home_inUse =>
      rw [hbits, hf.home_inUse]
      rfl
    case home_safe =>
      rw [Reserved.congr hn]
      exact hf.home_safe
    case lt =>
      intro c hc
      rw [hn]
      rcases (howns c).mp hc with rfl | hc
      · exact lt_of_isFree hfree
      · exact hf.lt c hc
    case inUse =>
      intro c hc
      rw [hbits]
      rcases (howns c).mp hc with rfl | hc
      · simp
      · rw [hf.inUse c hc]
        rfl
    case safe =>
      intro c hc
      rw [Reserved.congr hn]
      rcases (howns c).mp hc with rfl | hc
      · exact hres
      · exact hf.safe c hc
    case off_home =>
      intro c hc
      rcases (howns c).mp hc with rfl | hc
      · exact hhome
      · exact hf.off_home c hc
    case inj =>
      intro s u hs heq
      rw [hslot] at hs heq
      rw [hslot] at heq
      split at heq
      · rename_i hst
        split at heq
        · rename_i hut
          rw [hst, hut]
        · exact absurd ⟨hne, u, heq.symm⟩ hown
      · rename_i hst
        rw [if_neg hst] at hs
        split at heq
        · rw [heq] at hs
          exact absurd ⟨hne, s, heq⟩ hown
        · exact hf.inj s u hs heq
  · constructor
    case nblocks => exact hn
    case same => exact hsame
    case kept =>
      intro s hs
      rw [hslot, if_neg]
      rintro rfl
      exact hs hempty
    case bits =>
      intro c
      rw [hbits, howns, Bool.and_eq_true, bne_iff_ne]
      constructor
      · rintro ⟨hc, hcb⟩
        refine ⟨hc, ?_⟩
        rintro (h | h)
        · exact hcb h
        · exact (hf.free_ne hc).2.1 h
      · rintro ⟨hc, hn⟩
        exact ⟨hc, fun h => hn (.inl h)⟩
    case taken =>
      intro c hc
      rcases (howns c).mp hc with rfl | hc
      · exact .inr hfree
      · exact .inl hc

/-- A file stays good when its bitmap and its slots stay. -/
theorem FileOk.congr (hf : FileOk m f) (hsame : SameBitmap m m') (hslot : slot m' f = slot m f) :
  FileOk m' f
  := by
  have howns : ∀ c, Owns m' f c ↔ Owns m f c := by
    intro c
    rw [Owns, Owns, hslot]
  constructor
  · exact hsame.bitmapOk hf.bitmap
  · exact hf.placed
  · rw [hsame.nblocks]
    exact hf.home_lt
  · rw [hsame.isFree]
    exact hf.home_inUse
  · rw [Reserved.congr hsame.nblocks]
    exact hf.home_safe
  · intro c hc
    rw [hsame.nblocks]
    exact hf.lt c ((howns c).mp hc)
  · intro c hc
    rw [hsame.isFree]
    exact hf.inUse c ((howns c).mp hc)
  · intro c hc
    rw [Reserved.congr hsame.nblocks]
    exact hf.safe c ((howns c).mp hc)
  · intro c hc
    exact hf.off_home c ((howns c).mp hc)
  · rw [hslot]
    exact hf.inj

/-- A change that leaves the bitmap and the slots. -/
theorem Moved.of_same (hf : FileOk m f) (hsame : SameBitmap m m') (hslot : slot m' f = slot m f)
    (hframe : ∀ a, ¬ InBitmap m a → ¬ InMeta f a → ¬ Owns m f (a / BLKSIZE) →
      isFree m (a / BLKSIZE) = false → m' a = m a) :
  Moved m m' f
  := by
  have howns : ∀ c, Owns m' f c ↔ Owns m f c := by
    intro c
    rw [Owns, Owns, hslot]
  constructor
  · exact hsame.nblocks
  · exact hframe
  · intro c
    rw [hsame.isFree, howns]
    exact (Moved.refl hf).bits c
  · intro c hc
    exact .inl ((howns c).mp hc)

end Jos.Fs
