import Jos.Fs.Slots

/-!
# Finding and allocating blocks

`file_block_walk` and `file_get_block` fill the empty slots they meet with free blocks.
They return the address of a block of the file, or panic when the disk is full: then the
error code of `alloc_block` is taken for a block number.
-/

namespace Jos.Fs

open Bytes Io

variable {m m' m'' : Memory} {f i b n : Nat} {E : Prop}

/-! ### Writing slots -/

theorem InSlots.inside {a : Nat} (h : InSlots f a) :
  f ≤ a ∧ a < f + FILESIZE
  := by
  simp only [InSlots, f_direct, f_indirect, FILESIZE] at h ⊢
  omega

/-- Taking a block does not change the slots of a file. -/
theorem slot_takeBlock (hf : FileOk m f) (hb : b < nblocks m) :
  slot (takeBlock m b) f = slot m f
  := by
  apply slot_congr
  · intro a ha
    exact takeBlock_frame hb (hf.not_inBitmap ha.inside.1 ha.inside.2)
  · intro hne a ha
    exact takeBlock_frame hb (hf.owned_not_inBitmap (owns_slot (s := .indirect) hne) ha)

/-- A number is written to the slot of the `i`-th block. -/
theorem slot_write32_slotAddr (hf : Placed f) (hoff : ind m f ≠ 0 → ind m f ≠ home f)
    (hi : i < NINDIRECT + NDIRECT) (hind : NDIRECT ≤ i → ind m f ≠ 0) (w : Word) (s : Slot) :
  slot (write32 m (slotAddr m f i) w) f s = if s = .data i then w.toNat else slot m f s
  := by
  have hin := hf.inside
  have hentry : ∀ j, ind m f ≠ 0 → j < NINDIRECT + NDIRECT → NDIRECT ≤ j →
      f + 256 ≤ ind m f * BLKSIZE + 4 * (j - NDIRECT)
        ∨ ind m f * BLKSIZE + 4 * (j - NDIRECT) + 4 ≤ f := by
    intro j hne hj hj'
    have h := hoff hne
    simp only [home, NINDIRECT, NDIRECT, BLKSIZE, FILESIZE] at hin h hj hj' ⊢
    omega
  have hsame : ind (write32 m (slotAddr m f i) w) f = ind m f := by
    unfold ind
    rw [read32_write32_of_disjoint]
    unfold slotAddr
    split
    case isTrue h =>
      simp only [f_direct, f_indirect, NDIRECT] at h ⊢
      omega
    case isFalse h =>
      have := hentry i (hind (Nat.le_of_not_lt h)) hi (Nat.le_of_not_lt h)
      simp only [f_indirect] at this ⊢
      omega
  cases s with
  | indirect =>
      rw [if_neg (by rintro ⟨⟩)]
      exact hsame
  | data j =>
      by_cases hji : j = i
      · rw [if_pos (by rw [hji]), slot, hji, ← read32_slotAddr hi (by rw [hsame]; exact hind)]
        have haddr : slotAddr (write32 m (slotAddr m f i) w) f i = slotAddr m f i := by
          rw [slotAddr, hsame, ← slotAddr]
        rw [haddr, read32_write32]
      · rw [if_neg (by rintro ⟨⟩; exact hji rfl)]
        simp only [slot, dataBlock, hsame]
        split
        case isTrue hj =>
          rw [read32_write32_of_disjoint]
          unfold slotAddr
          split
          case isTrue h =>
            simp only [f_direct]
            omega
          case isFalse h =>
            have := hentry i (hind (Nat.le_of_not_lt h)) hi (Nat.le_of_not_lt h)
            simp only [f_direct, NDIRECT] at this hj ⊢
            omega
        case isFalse hj =>
          split
          case isTrue hne =>
            rw [read32_write32_of_disjoint]
            unfold slotAddr
            split
            case isTrue h =>
              have := hentry j hne.2 hne.1 (Nat.le_of_not_lt hj)
              simp only [f_direct, NDIRECT] at this h ⊢
              omega
            case isFalse h =>
              simp only [NDIRECT] at hj h ⊢
              omega
          case isFalse => rfl

/-- A cleared block becomes the indirect block. -/
theorem slot_newIndirect (hempty : ind m f = 0) (hf : Placed f) {w : Word} (hw : w ≠ 0)
    (hhome : w.toNat ≠ home f) (s : Slot) :
  slot (fill (write32 m (f_indirect f) w) (w.toNat * BLKSIZE) BLKSIZE 0) f s
    = if s = .indirect then w.toNat else slot m f s
  := by
  have hin := hf.inside
  have hrecord : f + 256 ≤ w.toNat * BLKSIZE ∨ w.toNat * BLKSIZE + BLKSIZE ≤ f := by
    simp only [home, BLKSIZE, FILESIZE] at hin hhome ⊢
    omega
  have hnew : ind (fill (write32 m (f_indirect f) w) (w.toNat * BLKSIZE) BLKSIZE 0) f
      = w.toNat := by
    unfold ind
    rw [read32_fill_of_disjoint, read32_write32]
    simp only [f_indirect]
    omega
  have hne : w.toNat ≠ 0 := by
    intro h
    exact hw (BitVec.eq_of_toNat_eq h)
  cases s with
  | indirect =>
      rw [if_pos rfl]
      exact hnew
  | data j =>
      rw [if_neg (by rintro ⟨⟩)]
      simp only [slot, dataBlock, hnew]
      split
      case isTrue hj =>
        rw [read32_fill_of_disjoint, read32_write32_of_disjoint]
        · simp only [f_direct, f_indirect, NDIRECT] at hj ⊢
          omega
        · simp only [f_direct, NDIRECT] at hj ⊢
          omega
      case isFalse hj =>
        rw [if_neg (fun h : j < NINDIRECT + NDIRECT ∧ ind m f ≠ 0 => h.2 hempty)]
        split
        case isTrue h =>
          rw [read32_fill_zero]
          · rfl
          · omega
          · simp only [NDIRECT, NINDIRECT, BLKSIZE] at hj h ⊢
            omega
        case isFalse => rfl

/-! ### Counting the blocks that are missing -/

/-- The slots that the first `n` blocks need. -/
def needs (n : Nat) : Finset Slot :=
  (Finset.range n).image Slot.data ∪ (if NDIRECT < n then {Slot.indirect} else ∅)

/-- The number of slots that are empty of those that the first `n` blocks need. -/
def missing (m : Memory) (f n : Nat) : Nat :=
  ((needs n).filter (fun s => slot m f s = 0)).card

theorem mem_needs_data (h : i < n) :
  Slot.data i ∈ needs n
  := by
  apply Finset.mem_union_left
  rw [Finset.mem_image]
  exact ⟨i, Finset.mem_range.mpr h, rfl⟩

theorem mem_needs_indirect (h : NDIRECT < n) :
  Slot.indirect ∈ needs n
  := by
  apply Finset.mem_union_right
  rw [if_pos h]
  exact Finset.mem_singleton_self _

theorem within_fill {t : Slot} (ht : t ∈ needs n)
    (hslot : ∀ s, slot m' f s = if s = t then b else slot m f s) (s : Slot)
    (hs : slot m' f s ≠ 0) :
  slot m f s ≠ 0 ∨ s ∈ needs n
  := by
  rw [hslot] at hs
  split at hs
  case isTrue h => exact .inr (h ▸ ht)
  case isFalse => exact .inl hs

/-- There is a slot less to fill when one was filled. -/
theorem missing_fill {t : Slot} (ht : t ∈ needs n) (hempty : slot m f t = 0) (hb : b ≠ 0)
    (hslot : ∀ s, slot m' f s = if s = t then b else slot m f s) :
  missing m' f n + 1 = missing m f n
  := by
  unfold missing
  have heq : (needs n).filter (fun s => slot m' f s = 0)
      = ((needs n).filter (fun s => slot m f s = 0)).erase t := by
    ext s
    rw [Finset.mem_filter, Finset.mem_erase, Finset.mem_filter, hslot]
    by_cases hst : s = t
    · simp [hst, hb]
    · simp [hst]
  rw [heq]
  apply Finset.card_erase_add_one
  rw [Finset.mem_filter]
  exact ⟨ht, hempty⟩

theorem missing_pos {t : Slot} (ht : t ∈ needs n) (hempty : slot m f t = 0) :
  0 < missing m f n
  := by
  apply Finset.card_pos.mpr
  use t
  rw [Finset.mem_filter]
  exact ⟨ht, hempty⟩

/-- The blocks that were taken are the slots that were filled. -/
def Spent (m m' : Memory) (f n : Nat) : Prop :=
  avail m' + missing m f n = avail m + missing m' f n

theorem Spent.trans (h : Spent m m' f n) (h' : Spent m' m'' f n) :
  Spent m m'' f n
  := by
  unfold Spent at h h' ⊢
  omega

/-- What a step of a walk through a file leaves. -/
structure Stepped (m m' : Memory) (f n : Nat) : Prop where
  ok : FileOk m' f
  grown : Grown m m' f
  spent : Spent m m' f n
  within : ∀ s, slot m' f s ≠ 0 → slot m f s ≠ 0 ∨ s ∈ needs n

theorem Stepped.refl (hf : FileOk m f) (n : Nat) :
  Stepped m m f n
  := ⟨hf, Grown.refl hf, rfl, fun _ => .inl⟩

theorem Stepped.trans (h : Stepped m m' f n) (h' : Stepped m' m'' f n) :
  Stepped m m'' f n
  where
  ok := h'.ok
  grown := h.grown.trans h'.grown
  spent := h.spent.trans h'.spent
  within s hs := by
    rcases h'.within s hs with hs | hs
    · exact h.within s hs
    · exact .inr hs

/-- The disk is full for a step when it is full for the steps after it. -/
theorem Stepped.full (h : Stepped m m' f n) (hfull : avail m' < missing m' f n) :
  avail m < missing m f n
  := by
  have hspent := h.spent
  unfold Spent at hspent
  omega

/-- A program goes on from where a step has led. -/
theorem Stepped.ends {α : Type} {p : Io α} {Q : α → Memory → Prop} (h : Stepped m m' f n)
    (hp : p.Ends valid m' Q (avail m' < missing m' f n)) :
  p.Ends valid m' Q (avail m < missing m f n)
  := hp.mono (fun _ _ hQ => hQ) h.full

/-! ### Filling slots -/

theorem FileOk.ne_home (hf : FileOk m f) (h : ind m f ≠ 0) :
  ind m f ≠ home f
  := hf.off_home _ (owns_slot (s := .indirect) h)

/-- The error code is no block number. -/
theorem E_NO_DISK_not_block (hm : BitmapOk m) :
  nblocks m ≤ (-E_NO_DISK : Word).toNat ∧ (-E_NO_DISK : Word) ≠ 0
  := by
  have hsmall := hm.small
  constructor
  · refine Nat.le_trans hsmall ?_
    decide
  · decide

theorem ult_zero (w : Word) :
  w.ult 0 = false
  := by
  simp [BitVec.ult]

/-- A slot lies in the structure or in the indirect block. -/
theorem slotAddr_cases (hi : i < NINDIRECT + NDIRECT) (hind : NDIRECT ≤ i → ind m f ≠ 0) {a : Nat}
    (ha : slotAddr m f i ≤ a) (ha' : a < slotAddr m f i + 4) :
  InSlots f a ∨ (ind m f ≠ 0 ∧ a / BLKSIZE = ind m f)
  := by
  unfold slotAddr at ha ha'
  split at ha
  case isTrue h =>
    rw [if_pos h] at ha'
    left
    simp only [InSlots, f_direct, f_indirect, NDIRECT] at h ha ha' ⊢
    omega
  case isFalse h =>
    rw [if_neg h] at ha'
    refine .inr ⟨hind (Nat.le_of_not_lt h), ?_⟩
    simp only [NDIRECT, NINDIRECT, BLKSIZE] at h hi ha ha' ⊢
    omega

/-- Writing a slot changes the structure or the indirect block only. -/
theorem write32_slotAddr_frame (hi : i < NINDIRECT + NDIRECT) (hind : NDIRECT ≤ i → ind m f ≠ 0)
    {a : Nat} (ha : ¬ InSlots f a) (ha' : ind m f ≠ 0 → a / BLKSIZE ≠ ind m f) (w : Word)
    (m' : Memory) :
  write32 m' (slotAddr m f i) w a = m' a
  := by
  apply write32_of_disjoint
  by_contra hin
  rcases slotAddr_cases hi hind (a := a) (by omega) (by omega) with h | ⟨hne, h⟩
  · exact ha h
  · exact ha' hne h

/-- Writing a slot does not change the bitmap. -/
theorem sameBitmap_slotAddr (hf : FileOk m f) (hi : i < NINDIRECT + NDIRECT)
    (hind : NDIRECT ≤ i → ind m f ≠ 0) (w : Word) (hn : nblocks m' = nblocks m) :
  SameBitmap m' (write32 m' (slotAddr m f i) w)
  where
  super x hx hx' := by
    obtain ⟨hmeta, hoff⟩ := hf.super_off hx hx'
    apply write32_slotAddr_frame hi hind (fun hs => hmeta (.inr hs))
    exact fun hne => hoff _ (owns_slot (s := .indirect) hne)
  bitmap a ha := by
    rw [InBitmap.congr hn] at ha
    apply write32_slotAddr_frame hi hind
    · exact fun hs => hf.not_inBitmap hs.inside.1 hs.inside.2 ha
    · exact fun hne heq => hf.owned_not_inBitmap (owns_slot (s := .indirect) hne) heq ha

/-- Writing the slot of the indirect block does not change the bitmap. -/
theorem sameBitmap_f_indirect (hf : FileOk m f) (w : Word) (hn : nblocks m' = nblocks m) :
  SameBitmap m' (write32 m' (f_indirect f) w)
  := by
  have hslots : ∀ a, ¬ InSlots f a → write32 m' (f_indirect f) w a = m' a := by
    intro a ha
    apply write32_of_disjoint
    simp only [InSlots, f_direct, f_indirect] at ha ⊢
    omega
  constructor
  · intro x hx hx'
    exact hslots x (fun hs => (hf.super_off hx hx').1 (.inr hs))
  · intro a ha
    rw [InBitmap.congr hn] at ha
    exact hslots a (fun hs => hf.not_inBitmap hs.inside.1 hs.inside.2 ha)

/-- Changes in a block that is not reserved do not change the bitmap. -/
theorem sameBitmap_of_block (hres : ¬ Reserved m b)
    (h : ∀ a, a / BLKSIZE ≠ b → m' a = m a) :
  SameBitmap m m'
  := by
  constructor
  · intro x hx hx'
    apply h
    rintro rfl
    apply hres
    rw [Reserved]
    simp only [s_nblocks, super, BLKSIZE] at hx hx' ⊢
    omega
  · intro a ha
    apply h
    rintro rfl
    exact hres ha.2

/-- A file grows by the block that was found. -/
theorem stepped_newBlock {r : Word} (hf : FileOk m f) (h : Found m r m')
    (hi : i < NINDIRECT + NDIRECT) (hind : NDIRECT ≤ i → ind m f ≠ 0)
    (hempty : dataBlock m f i = 0) (hn : i < n) :
  Stepped m (write32 m' (slotAddr m f i) r) f n
    ∧ dataBlock (write32 m' (slotAddr m f i) r) f i ≠ 0
    ∧ slotAddr (write32 m' (slotAddr m f i) r) f i = slotAddr m f i
  := by
  obtain ⟨hscan, hfree, -, rfl⟩ := h
  obtain ⟨hres, hown, hhome, hne⟩ := hf.free_ne hfree
  have hlt := lt_of_isFree hfree
  have htake := slot_takeBlock hf hlt
  have hindeq : ind (takeBlock m r.toNat) f = ind m f := congrFun htake .indirect
  have haddr : slotAddr (takeBlock m r.toNat) f i = slotAddr m f i := by
    rw [slotAddr, hindeq, ← slotAddr]
  have hslot : ∀ s, slot (write32 (takeBlock m r.toNat) (slotAddr m f i) r) f s
      = if s = .data i then r.toNat else slot m f s := by
    intro s
    rw [← haddr, slot_write32_slotAddr hf.placed _ hi, htake]
    · rw [hindeq]
      exact hind
    · rw [hindeq]
      exact hf.ne_home
  have hindeq' : ind (write32 (takeBlock m r.toNat) (slotAddr m f i) r) f = ind m f := by
    have := hslot .indirect
    rw [if_neg (by rintro ⟨⟩)] at this
    exact this
  have hsame := sameBitmap_slotAddr hf hi hind r (nblocks_takeBlock m r.toNat)
  have hfill : FileOk (write32 (takeBlock m r.toNat) (slotAddr m f i) r) f
      ∧ Grown m (write32 (takeBlock m r.toNat) (slotAddr m f i) r) f := by
    apply grown_fill hf hfree (t := .data i) hempty hslot
    · intro c
      rw [hsame.isFree, isFree_takeBlock]
    · rw [hsame.nblocks, nblocks_takeBlock]
    · intro a hbit hs hoff
      rw [hindeq'] at hoff
      rw [write32_slotAddr_frame hi hind hs hoff]
      exact takeBlock_frame hlt hbit
  refine ⟨⟨hfill.1, hfill.2, ?_, within_fill (mem_needs_data hn) hslot⟩, ?_, ?_⟩
  · have havail := avail_takeBlock hscan hfree
    have hmissing := missing_fill (mem_needs_data hn) hempty hne hslot
    have hsame := hsame.avail
    unfold Spent
    omega
  · have := hslot (.data i)
    rw [if_pos rfl] at this
    exact this.trans_ne hne
  · rw [slotAddr, hindeq', ← slotAddr]

/-- Filling the new indirect block of a file does not change the bitmap. -/
theorem sameBitmap_newIndirect {r : Word} (hf : FileOk m f) (hres : ¬ Reserved m r.toNat) :
  SameBitmap (takeBlock m r.toNat)
    (fill (write32 (takeBlock m r.toNat) (f_indirect f) r) (r.toNat * BLKSIZE) BLKSIZE 0)
  := by
  have hsame := sameBitmap_f_indirect hf r (nblocks_takeBlock m r.toNat)
  apply hsame.trans
  apply sameBitmap_of_block (b := r.toNat)
  · rw [Reserved.congr hsame.nblocks, Reserved.congr (nblocks_takeBlock m _)]
    exact hres
  · intro a ha
    rw [fill, if_neg]
    simp only [BLKSIZE] at ha ⊢
    omega

/-- A file gets the block that was found as its indirect block. -/
theorem stepped_newIndirect {r : Word} (hf : FileOk m f) (h : Found m r m')
    (hempty : ind m f = 0) (hn : NDIRECT < n) :
  Stepped m (fill (write32 m' (f_indirect f) r) (r.toNat * BLKSIZE) BLKSIZE 0) f n
    ∧ ind (fill (write32 m' (f_indirect f) r) (r.toNat * BLKSIZE) BLKSIZE 0) f ≠ 0
  := by
  obtain ⟨hscan, hfree, -, rfl⟩ := h
  obtain ⟨hres, hown, hhome, hne⟩ := hf.free_ne hfree
  have hlt := lt_of_isFree hfree
  have htake := slot_takeBlock hf hlt
  have hindeq : ind (takeBlock m r.toNat) f = ind m f := congrFun htake .indirect
  have hne' : r ≠ 0 := by
    rintro rfl
    exact hne rfl
  have hslot : ∀ s, slot (fill (write32 (takeBlock m r.toNat) (f_indirect f) r)
      (r.toNat * BLKSIZE) BLKSIZE 0) f s = if s = .indirect then r.toNat else slot m f s := by
    intro s
    rw [slot_newIndirect (hindeq.trans hempty) hf.placed hne' hhome, htake]
  have hsame := sameBitmap_newIndirect hf hres
  have hnew := hslot .indirect
  rw [if_pos rfl] at hnew
  have hfill : FileOk (fill (write32 (takeBlock m r.toNat) (f_indirect f) r)
        (r.toNat * BLKSIZE) BLKSIZE 0) f
      ∧ Grown m (fill (write32 (takeBlock m r.toNat) (f_indirect f) r)
        (r.toNat * BLKSIZE) BLKSIZE 0) f := by
    apply grown_fill hf hfree (t := .indirect) hempty hslot
    · intro c
      rw [hsame.isFree, isFree_takeBlock]
    · rw [hsame.nblocks, nblocks_takeBlock]
    · intro a hbit hs hoff
      change slot _ _ .indirect ≠ 0 → _ ≠ slot _ _ .indirect at hoff
      rw [hnew] at hoff
      have hblock := hoff hne
      rw [fill, if_neg, write32_of_disjoint, takeBlock_frame hlt hbit]
      · simp only [InSlots, f_direct, f_indirect] at hs ⊢
        omega
      · simp only [BLKSIZE] at hblock ⊢
        omega
  refine ⟨⟨hfill.1, hfill.2, ?_, within_fill (mem_needs_indirect hn) hslot⟩, ?_⟩
  · have havail := avail_takeBlock hscan hfree
    have hmissing := missing_fill (mem_needs_indirect hn) hempty hne hslot
    have hsame := hsame.avail
    unfold Spent
    omega
  · exact hnew.trans_ne hne

/-! ### Walking through a file -/

/-- A block that is full of other bytes can be accessed as before. -/
theorem valid_of_block (hm : BitmapOk m) (hres : ¬ Reserved m b) (hlt : b < nblocks m)
    (huse : isFree m b = false) (h : ∀ a, a / BLKSIZE ≠ b → m' a = m a) {a : Nat}
    (ha : a / BLKSIZE = b) :
  valid m' a = true
  := by
  have hsame := sameBitmap_of_block hres h
  apply (hsame.bitmapOk hm).valid
  · rw [ha, hsame.nblocks]
    exact hlt
  · rw [ha, hsame.isFree]
    exact huse

/-- A new indirect block.  When the disk is full, the error code becomes the block number, and
its address is asked for. -/
theorem ends_allocIndirect (hf : FileOk m f) (hempty : ind m f = 0) (hn : NDIRECT < n) :
  (allocIndirect f).Ends valid m
    (fun r m' => r = none ∧ Stepped m m' f n ∧ ind m' f ≠ 0) (avail m < missing m f n)
  := by
  unfold allocIndirect
  rw [ends_bind]
  apply (ends_allocBlock hf.bitmap).mono _ id
  intro r m₁ hr
  rw [ult_zero, if_neg Bool.false_ne_true, ends_bind, ends_set32]
  rcases hr with hfound | ⟨rfl, hnone, rfl⟩
  · obtain ⟨hstep, hind⟩ := stepped_newIndirect hf hfound hempty hn
    obtain ⟨-, hfree, -, rfl⟩ := hfound
    obtain ⟨hres, hown, hhome, hne⟩ := hf.free_ne hfree
    have hsame := sameBitmap_f_indirect hf r (nblocks_takeBlock m r.toNat)
    have hm₂ := hsame.bitmapOk (hf.bitmap.takeBlock r.toNat)
    have hlt : r.toNat < nblocks (write32 (takeBlock m r.toNat) (f_indirect f) r) := by
      rw [hsame.nblocks, nblocks_takeBlock]
      exact lt_of_isFree hfree
    refine ⟨okWord_takeBlock hf.okWord_f_indirect _, ?_⟩
    rw [ends_bind]
    apply ends_diskaddr hm₂
    · intro _ _
      rw [ends_bind]
      apply ends_setBytes
      · intro m' hm' x hx
        rw [List.length_replicate] at hm' hx
        apply valid_of_block hm₂ _ hlt
        · rw [hsame.isFree, isFree_takeBlock]
          simp
        · intro a ha
          apply hm'
          simp only [BLKSIZE] at ha ⊢
          omega
        · simp only [BLKSIZE] at hx ⊢
          omega
        · rw [Reserved.congr hsame.nblocks, Reserved.congr (nblocks_takeBlock m _)]
          exact hres
      · rw [ends_pure, writeBytes_replicate]
        exact ⟨rfl, hstep, hind⟩
    · rintro (rfl | hge)
      · exact absurd rfl hne
      · omega
  · have hsame : SameBitmap m₁ (write32 m₁ (f_indirect f) (-E_NO_DISK)) :=
      sameBitmap_f_indirect hf _ rfl
    have hbad := E_NO_DISK_not_block hf.bitmap
    refine ⟨hf.okWord_f_indirect, ?_⟩
    rw [ends_bind]
    apply ends_diskaddr (hsame.bitmapOk hf.bitmap)
    · intro _ hlt
      rw [hsame.nblocks] at hlt
      omega
    · intro _
      rw [avail_eq_zero hnone]
      exact missing_pos (mem_needs_indirect hn) hempty

/-- Making sure that there is an indirect block. -/
theorem ends_needIndirect (hf : FileOk m f) (hn : NDIRECT < n) :
  (needIndirect f true).Ends valid m
    (fun r m' => r = none ∧ Stepped m m' f n ∧ ind m' f ≠ 0) (avail m < missing m f n)
  := by
  unfold needIndirect
  rw [ends_bind, ends_get32, ends_ite]
  refine ⟨hf.okWord_f_indirect, ?_, ?_⟩
  · intro hne
    rw [ends_pure]
    refine ⟨rfl, Stepped.refl hf n, ?_⟩
    intro h
    exact hne (BitVec.eq_of_toNat_eq h)
  · intro heq
    rw [if_pos rfl]
    apply ends_allocIndirect hf _ hn
    rw [ind, Decidable.not_not.mp heq]
    rfl

/-- The address of the indirect block. -/
theorem FileOk.ends_diskaddr_ind {Q : Nat → Memory → Prop} (hf : FileOk m f) (hne : ind m f ≠ 0)
    (hQ : Q (ind m f * BLKSIZE) m) :
  (diskaddr (read32 m (f_indirect f))).Ends valid m Q E
  := by
  have hlt := hf.lt _ (owns_slot (s := .indirect) hne)
  apply ends_diskaddr hf.bitmap
  · intro _ _
    exact hQ
  · rintro (h | h)
    · rw [ind, h] at hne
      exact absurd rfl hne
    · change _ ≤ ind m f at h
      simp only [slot] at hlt
      omega

/-- `file_block_walk` gives the address of a slot. -/
theorem ends_fileBlockWalk {w : Word} (hf : FileOk m f) (hw : w.toNat < NINDIRECT + NDIRECT)
    (hn : w.toNat < n) :
  (fileBlockWalk f w true).Ends valid m
    (fun r m' => r = .ok (slotAddr m' f w.toNat) ∧ Stepped m m' f n
      ∧ (NDIRECT ≤ w.toNat → ind m' f ≠ 0)) (avail m < missing m f n)
  := by
  unfold fileBlockWalk
  rw [ends_ite]
  constructor
  · intro hlt
    rw [ends_pure, slotAddr, if_pos hlt]
    exact ⟨rfl, Stepped.refl hf n, fun h => absurd hlt (Nat.not_lt.mpr h)⟩
  · intro hge
    rw [if_pos hw, ends_bind]
    apply (ends_needIndirect hf (by omega)).mono _ id
    rintro _ m₁ ⟨rfl, hstep, hind⟩
    rw [ends_bind, ends_get32]
    refine ⟨hstep.ok.okWord_f_indirect, ?_⟩
    rw [ends_bind]
    apply hstep.ok.ends_diskaddr_ind hind
    rw [ends_pure, slotAddr, if_neg hge]
    exact ⟨rfl, hstep, fun _ => hind⟩

/-- Filling a slot if it is empty. -/
theorem ends_fillSlot {Q : Option Word → Memory → Prop} (hf : FileOk m f)
    (hi : i < NINDIRECT + NDIRECT) (hind : NDIRECT ≤ i → ind m f ≠ 0)
    (hthere : dataBlock m f i ≠ 0 → Q none m)
    (hfill : dataBlock m f i = 0 → ∀ r m', Found m r m' → Q none (write32 m' (slotAddr m f i) r))
    (hfull : dataBlock m f i = 0 → avail m = 0 →
      Q none (write32 m (slotAddr m f i) (-E_NO_DISK))) :
  (fillSlot (slotAddr m f i)).Ends valid m Q E
  := by
  have hread := read32_slotAddr hi hind
  unfold fillSlot
  rw [ends_bind, ends_get32, ends_ite]
  refine ⟨hf.okWord_slotAddr hi hind, ?_, ?_⟩
  · intro hne
    rw [ends_pure]
    apply hthere
    rw [← hread]
    intro h
    exact hne (BitVec.eq_of_toNat_eq h)
  · intro heq
    rw [Decidable.not_not.mp heq] at hread
    rw [ends_bind]
    apply (ends_allocBlock hf.bitmap).mono _ id
    intro r m₁ hr
    rw [ult_zero, if_neg Bool.false_ne_true, ends_bind, ends_set32, ends_pure]
    rcases hr with hfound | ⟨rfl, hnone, rfl⟩
    · refine ⟨?_, hfill hread.symm r m₁ hfound⟩
      obtain ⟨-, -, -, rfl⟩ := hfound
      exact okWord_takeBlock (hf.okWord_slotAddr hi hind) _
    · exact ⟨hf.okWord_slotAddr hi hind, hfull hread.symm (avail_eq_zero hnone)⟩

/-- The address of a block of a file. -/
theorem FileOk.ends_diskaddr_slot {Q : Nat → Memory → Prop} (hf : FileOk m f)
    (hi : i < NINDIRECT + NDIRECT) (hind : NDIRECT ≤ i → ind m f ≠ 0) (hne : dataBlock m f i ≠ 0)
    (hQ : Q (dataBlock m f i * BLKSIZE) m) :
  (diskaddr (read32 m (slotAddr m f i))).Ends valid m Q E
  := by
  have hread := read32_slotAddr hi hind
  have hlt := hf.lt _ (owns_slot (s := .data i) hne)
  simp only [slot] at hlt
  apply ends_diskaddr hf.bitmap
  · intro _ _
    rw [hread]
    exact hQ
  · rintro (h | h)
    · rw [← hread, h] at hne
      exact absurd rfl hne
    · omega

/-- `file_get_block` gives the address of a block, or panics when the disk is full. -/
theorem ends_fileGetBlock {w : Word} (hf : FileOk m f) (hw : w.toNat < NINDIRECT + NDIRECT)
    (hn : w.toNat < n) :
  (fileGetBlock f w).Ends valid m
    (fun r m' => r = .ok (dataBlock m' f w.toNat * BLKSIZE) ∧ dataBlock m' f w.toNat ≠ 0
      ∧ Stepped m m' f n) (avail m < missing m f n)
  := by
  unfold fileGetBlock
  rw [ends_bind]
  apply (ends_fileBlockWalk hf hw hn).mono _ id
  rintro _ m₁ ⟨rfl, hstep, hind⟩
  rw [ends_bind]
  apply ends_fillSlot hstep.ok hw hind
  · intro hne
    rw [ends_bind, ends_get32]
    refine ⟨hstep.ok.okWord_slotAddr hw hind, ?_⟩
    rw [ends_bind]
    apply hstep.ok.ends_diskaddr_slot hw hind hne
    rw [ends_pure]
    exact ⟨rfl, hne, hstep⟩
  · intro hempty r m₂ hfound
    obtain ⟨hstep', hne, haddr⟩ := stepped_newBlock hstep.ok hfound hw hind hempty hn
    have hind' : NDIRECT ≤ w.toNat → ind (write32 m₂ (slotAddr m₁ f w.toNat) r) f ≠ 0 := by
      intro h
      have hkept := hstep'.grown.kept .indirect (hind h)
      exact hkept.trans_ne (hind h)
    generalize write32 m₂ (slotAddr m₁ f w.toNat) r = m₃ at hstep' hne haddr hind' ⊢
    rw [← haddr, ends_bind, ends_get32]
    refine ⟨hstep'.ok.okWord_slotAddr hw hind', ?_⟩
    rw [ends_bind]
    apply hstep'.ok.ends_diskaddr_slot hw hind' hne
    rw [ends_pure]
    exact ⟨rfl, hne, hstep.trans hstep'⟩
  · intro hempty hfull
    have hsame : SameBitmap m₁ (write32 m₁ (slotAddr m₁ f w.toNat) (-E_NO_DISK)) :=
      sameBitmap_slotAddr hstep.ok hw hind _ rfl
    have hbad := E_NO_DISK_not_block hstep.ok.bitmap
    have hmissing := missing_pos (mem_needs_data hn) hempty
    rw [ends_bind, ends_get32]
    refine ⟨?_, ?_⟩
    · rw [hsame.okWord]
      exact hstep.ok.okWord_slotAddr hw hind
    · rw [ends_bind, read32_write32]
      apply ends_diskaddr (hsame.bitmapOk hstep.ok.bitmap)
      · intro _ hlt
        rw [hsame.nblocks] at hlt
        omega
      · intro _
        apply hstep.full
        omega

/-- A slot that exists is found without any change. -/
theorem ends_fileBlockWalk_there {Q : Except Word Nat → Memory → Prop} {w : Word} {alloc : Bool}
    (hf : FileOk m f) (hw : w.toNat < NINDIRECT + NDIRECT) (hind : NDIRECT ≤ w.toNat → ind m f ≠ 0)
    (hQ : Q (.ok (slotAddr m f w.toNat)) m) :
  (fileBlockWalk f w alloc).Ends valid m Q E
  := by
  unfold slotAddr at hQ
  unfold fileBlockWalk
  rw [ends_ite]
  constructor
  · intro hlt
    rw [if_pos hlt] at hQ
    rw [ends_pure]
    exact hQ
  · intro hge
    have hne := hind (Nat.le_of_not_lt hge)
    have hne' : read32 m (f_indirect f) ≠ 0 := by
      intro h
      rw [ind, h] at hne
      exact hne rfl
    rw [if_neg hge] at hQ
    rw [if_pos hw, ends_bind]
    unfold needIndirect
    rw [ends_bind, ends_get32]
    refine ⟨hf.okWord_f_indirect, ?_⟩
    rw [if_pos hne', ends_pure, ends_bind, ends_get32]
    refine ⟨hf.okWord_f_indirect, ?_⟩
    rw [ends_bind]
    apply hf.ends_diskaddr_ind hne
    rw [ends_pure]
    exact hQ

/-- A block that exists has a slot. -/
theorem slot_of_dataBlock (hne : dataBlock m f i ≠ 0) :
  i < NINDIRECT + NDIRECT ∧ (NDIRECT ≤ i → ind m f ≠ 0)
  := by
  unfold dataBlock at hne
  split at hne
  case isTrue h =>
    refine ⟨?_, fun h' => absurd h (Nat.not_lt.mpr h')⟩
    rw [NDIRECT] at h ⊢
    omega
  case isFalse h =>
    split at hne
    case isTrue h' => exact ⟨h'.1, fun _ => h'.2⟩
    case isFalse => exact absurd rfl hne

/-- `file_get_block` changes nothing when the block exists. -/
theorem ends_fileGetBlock_there {Q : Except Word Nat → Memory → Prop} {w : Word} (hf : FileOk m f)
    (hne : dataBlock m f w.toNat ≠ 0) (hQ : Q (.ok (dataBlock m f w.toNat * BLKSIZE)) m) :
  (fileGetBlock f w).Ends valid m Q E
  := by
  obtain ⟨hw, hind⟩ := slot_of_dataBlock hne
  unfold fileGetBlock
  rw [ends_bind]
  apply ends_fileBlockWalk_there hf hw hind
  rw [ends_bind]
  apply ends_fillSlot hf hw hind
  · intro _
    rw [ends_bind, ends_get32]
    refine ⟨hf.okWord_slotAddr hw hind, ?_⟩
    rw [ends_bind]
    apply hf.ends_diskaddr_slot hw hind hne
    rw [ends_pure]
    exact hQ
  · exact fun h => absurd h hne
  · exact fun h => absurd h hne

end Jos.Fs
