import Jos.Fs.RoundTrip

/-!
# Truncating a file

`file_truncate_blocks` gives back the blocks that a smaller file does not need, and the
indirect block with them when the direct blocks are enough.  `file_set_size` truncates or
extends a file.
-/

namespace Jos.Fs

open Bytes Io

variable {m m' m'' : Memory} {f i b : Nat} {cut cut' : Slot → Prop}

/-! ### Emptying slots -/

/-- A change of `f` in which slots are emptied, and their blocks given back. -/
structure Shrunk (m m' : Memory) (f : Nat) (cut : Slot → Prop) : Prop where
  nblocks : nblocks m' = nblocks m
  same : ∀ a, ¬ InBitmap m a → ¬ InSlots f a → (ind m f ≠ 0 → a / BLKSIZE ≠ ind m f) → m' a = m a
  emptied : ∀ s, cut s → slot m' f s = 0
  kept : ∀ s, ¬ cut s → slot m' f s = slot m f s
  bits : ∀ b, isFree m' b = true ↔ isFree m b = true ∨ (b ≠ 0 ∧ ∃ s, cut s ∧ slot m f s = b)

theorem Shrunk.refl (m : Memory) (f : Nat) :
  Shrunk m m f (fun _ => False)
  where
  nblocks := rfl
  same _ _ _ _ := rfl
  emptied _ h := h.elim
  kept _ _ := rfl
  bits b := by
    constructor
    · exact .inl
    · rintro (h | ⟨-, s, hs, -⟩)
      · exact h
      · exact hs.elim

/-- Slots that are empty already do not matter. -/
theorem Shrunk.congr (h : Shrunk m m' f cut) (hcut : ∀ s, slot m f s ≠ 0 → (cut s ↔ cut' s)) :
  Shrunk m m' f cut'
  where
  nblocks := h.nblocks
  same := h.same
  emptied s hs := by
    by_contra hne
    have hcs : ¬ cut s := fun hc => hne (h.emptied s hc)
    rw [h.kept s hcs] at hne
    exact hcs ((hcut s hne).mpr hs)
  kept s hs := by
    rcases Classical.em (cut s) with hc | hc
    · by_contra hne
      rw [h.emptied s hc] at hne
      exact hs ((hcut s (fun h => hne h.symm)).mp hc)
    · exact h.kept s hc
  bits b := by
    rw [h.bits]
    constructor
    · rintro (hb | ⟨hb, s, hs, heq⟩)
      · exact .inl hb
      · exact .inr ⟨hb, s, (hcut s (by rw [heq]; exact hb)).mp hs, heq⟩
    · rintro (hb | ⟨hb, s, hs, heq⟩)
      · exact .inl hb
      · exact .inr ⟨hb, s, (hcut s (by rw [heq]; exact hb)).mpr hs, heq⟩

theorem Shrunk.trans (h : Shrunk m m' f cut) (h' : Shrunk m' m'' f cut') :
  Shrunk m m'' f (fun s => cut s ∨ cut' s)
  where
  nblocks := h'.nblocks.trans h.nblocks
  same a hbit hslots hind := by
    rw [h'.same a _ hslots, h.same a hbit hslots hind]
    · intro hne
      have hcut : ¬ cut .indirect := fun hc => hne (h.emptied .indirect hc)
      have hkept : ind m' f = ind m f := h.kept .indirect hcut
      rw [hkept] at hne ⊢
      exact hind hne
    · rw [InBitmap.congr h.nblocks]
      exact hbit
  emptied s hs := by
    rcases Classical.em (cut' s) with hc | hc
    · exact h'.emptied s hc
    · rw [h'.kept s hc, h.emptied s (hs.resolve_right hc)]
  kept s hs := by
    rw [h'.kept s (fun hc => hs (.inr hc)), h.kept s (fun hc => hs (.inl hc))]
  bits b := by
    rw [h'.bits, h.bits]
    constructor
    · rintro ((hb | ⟨hb, s, hs, heq⟩) | ⟨hb, s, hs, heq⟩)
      · exact .inl hb
      · exact .inr ⟨hb, s, .inl hs, heq⟩
      · refine .inr ⟨hb, s, .inr hs, ?_⟩
        rw [← h.kept s, heq]
        intro hc
        exact hb (heq.symm.trans (h.emptied s hc))
    · rintro (hb | ⟨hb, s, hs, heq⟩)
      · exact .inl (.inl hb)
      · rcases Classical.em (cut s) with hc | hc
        · exact .inl (.inr ⟨hb, s, hc, heq⟩)
        · refine .inr ⟨hb, s, hs.resolve_left hc, ?_⟩
          rw [h.kept s hc, heq]

/-- A block of the smaller file is one of the file, and it is not given back. -/
theorem Shrunk.owns (h : Shrunk m m' f cut) (hf : FileOk m f) :
  Owns m' f b ↔ Owns m f b ∧ isFree m' b = false
  := by
  constructor
  · rintro ⟨hne, s, hs⟩
    have hcut : ¬ cut s := fun hc => hne (hs.symm.trans (h.emptied s hc))
    rw [h.kept s hcut] at hs
    have hown : Owns m f b := ⟨hne, s, hs⟩
    refine ⟨hown, ?_⟩
    rw [← Bool.not_eq_true, h.bits]
    rintro (hb | ⟨-, t, ht, heq⟩)
    · rw [hf.inUse b hown] at hb
      cases hb
    · apply hcut
      rw [hf.inj s t (by rw [hs]; exact hne) (hs.trans heq.symm)]
      exact ht
  · rintro ⟨⟨hne, s, hs⟩, huse⟩
    have hcut : ¬ cut s := by
      intro hc
      rw [← Bool.not_eq_true, h.bits] at huse
      exact huse (.inr ⟨hne, s, hc, hs⟩)
    exact ⟨hne, s, by rw [h.kept s hcut, hs]⟩

/-- Emptying slots is a change of the file. -/
theorem Shrunk.moved (h : Shrunk m m' f cut) (hf : FileOk m f) :
  Moved m m' f
  where
  nblocks := h.nblocks
  frame a hbit hmeta hown _ := by
    apply h.same a hbit (fun hs => hmeta (.inr hs))
    intro hne heq
    exact hown (heq ▸ owns_slot (s := .indirect) hne)
  bits b := by
    rw [h.owns hf]
    constructor
    · intro hb
      refine ⟨?_, fun ho => by rw [hb] at ho; cases ho.2⟩
      rcases (h.bits b).mp hb with hb' | ⟨hne, s, -, heq⟩
      · exact .inl hb'
      · exact .inr ⟨hne, s, heq⟩
    · rintro ⟨hb | hb, hn⟩
      · exact (h.bits b).mpr (.inl hb)
      · rw [← Bool.not_eq_false]
        exact fun huse => hn ⟨hb, huse⟩
  taken b hb := .inl ((h.owns hf).mp hb).1

/-- A file stays good when slots are emptied. -/
theorem Shrunk.fileOk (h : Shrunk m m' f cut) (hf : FileOk m f) :
  FileOk m' f
  := by
  have hown : ∀ c, Owns m' f c → Owns m f c := fun c hc => ((h.owns hf).mp hc).1
  have huse : ∀ c, isFree m c = false → ¬ Owns m f c → isFree m' c = false := by
    intro c hc hn
    rw [← Bool.not_eq_true, h.bits]
    rintro (hb | ⟨hne, s, -, heq⟩)
    · rw [hc] at hb
      cases hb
    · exact hn ⟨hne, s, heq⟩
  constructor
  · refine ⟨by rw [h.nblocks]; exact hf.bitmap.small, by rw [h.nblocks]; exact hf.bitmap.large, ?_⟩
    intro c hc
    rw [Reserved.congr h.nblocks] at hc
    exact huse c (hf.bitmap.reserved c hc) (fun ho => hf.safe c ho hc)
  · exact hf.placed
  · rw [h.nblocks]
    exact hf.home_lt
  · exact huse _ hf.home_inUse (fun ho => hf.off_home _ ho rfl)
  · rw [Reserved.congr h.nblocks]
    exact hf.home_safe
  · intro c hc
    rw [h.nblocks]
    exact hf.lt c (hown c hc)
  · intro c hc
    exact ((h.owns hf).mp hc).2
  · intro c hc
    rw [Reserved.congr h.nblocks]
    exact hf.safe c (hown c hc)
  · intro c hc
    exact hf.off_home c (hown c hc)
  · intro s t hs heq
    have hcut : ∀ u, slot m' f u ≠ 0 → slot m' f u = slot m f u :=
      fun u hu => h.kept u (fun hc => hu (h.emptied u hc))
    rw [hcut t (by rw [← heq]; exact hs), hcut s hs] at heq
    rw [hcut s hs] at hs
    exact hf.inj s t hs heq

/-! ### Emptying one slot -/

/-- Giving a block back does not change the slots of a file. -/
theorem slot_giveBlock (hf : FileOk m f) (hb : b < nblocks m) :
  slot (giveBlock m b) f = slot m f
  := by
  apply slot_congr
  · intro a ha
    exact giveBlock_frame hb (hf.not_inBitmap ha.inside.1 ha.inside.2)
  · intro hne a ha
    exact giveBlock_frame hb (hf.owned_not_inBitmap (owns_slot (s := .indirect) hne) ha)

/-- What is left when a block was given back and its slot emptied. -/
theorem shrunk_give {t : Slot} (hlt : slot m f t < nblocks m) (hne : slot m f t ≠ 0)
    (hslot : ∀ s, slot m' f s = if s = t then 0 else slot m f s)
    (hsame : SameBitmap (giveBlock m (slot m f t)) m')
    (hframe : ∀ a, ¬ InSlots f a → (ind m f ≠ 0 → a / BLKSIZE ≠ ind m f) →
      m' a = giveBlock m (slot m f t) a) :
  Shrunk m m' f (fun s => s = t)
  where
  nblocks := by rw [hsame.nblocks, nblocks_giveBlock]
  same a hbit hslots hind := by
    rw [hframe a hslots hind, giveBlock_frame hlt hbit]
  emptied s hs := by rw [hslot, if_pos hs]
  kept s hs := by rw [hslot, if_neg hs]
  bits b := by
    rw [hsame.isFree, isFree_giveBlock hlt, Bool.or_eq_true, beq_iff_eq]
    constructor
    · rintro (hb | rfl)
      · exact .inl hb
      · exact .inr ⟨hne, t, rfl, rfl⟩
    · rintro (hb | ⟨-, s, rfl, rfl⟩)
      · exact .inl hb
      · exact .inr rfl

/-- A block of data is given back. -/
theorem shrunk_data (hf : FileOk m f) (hne : dataBlock m f i ≠ 0) :
  Shrunk m (write32 (giveBlock m (dataBlock m f i)) (slotAddr m f i) 0) f (fun s => s = .data i)
  := by
  obtain ⟨hi, hind⟩ := slot_of_dataBlock hne
  have hlt := hf.lt _ (owns_slot (s := .data i) hne)
  have hgive := slot_giveBlock hf hlt
  have hindeq : ind (giveBlock m (dataBlock m f i)) f = ind m f := congrFun hgive .indirect
  have haddr : slotAddr (giveBlock m (dataBlock m f i)) f i = slotAddr m f i := by
    rw [slotAddr, hindeq, ← slotAddr]
  apply shrunk_give (t := .data i) hlt hne
  · intro s
    rw [← haddr, slot_write32_slotAddr hf.placed _ hi _ 0 s]
    · rw [← hgive]
      rfl
    · rw [hindeq]
      exact hf.ne_home
    · rw [hindeq]
      exact hind
  · exact sameBitmap_slotAddr hf hi hind 0 (nblocks_giveBlock m _)
  · intro a hs hoff
    exact write32_slotAddr_frame hi hind hs hoff 0 _

/-- Emptying the slot of the indirect block empties the slots in it. -/
theorem slot_write32_f_indirect (hempty : ∀ i, NDIRECT ≤ i → dataBlock m f i = 0)
    (s : Slot) :
  slot (write32 m (f_indirect f) 0) f s = if s = .indirect then 0 else slot m f s
  := by
  have hind : ind (write32 m (f_indirect f) 0) f = 0 := by
    rw [ind, read32_write32]
    rfl
  cases s with
  | indirect =>
      rw [if_pos rfl]
      exact hind
  | data j =>
      rw [if_neg (by rintro ⟨⟩)]
      simp only [slot]
      by_cases hj : j < NDIRECT
      · rw [dataBlock, dataBlock, if_pos hj, if_pos hj, read32_write32_of_disjoint]
        simp only [f_direct, f_indirect, NDIRECT] at hj ⊢
        omega
      · rw [hempty j (Nat.le_of_not_lt hj), dataBlock, if_neg hj, hind, if_neg]
        exact fun h => h.2 rfl

/-- The indirect block is given back once it holds no blocks. -/
theorem shrunk_indirect (hf : FileOk m f) (hne : ind m f ≠ 0)
    (hempty : ∀ i, NDIRECT ≤ i → dataBlock m f i = 0) :
  Shrunk m (write32 (giveBlock m (ind m f)) (f_indirect f) 0) f (fun s => s = .indirect)
  := by
  have hlt := hf.lt _ (owns_slot (s := .indirect) hne)
  have hgive := slot_giveBlock hf hlt
  apply shrunk_give (t := .indirect) hlt hne
  · intro s
    change slot (write32 (giveBlock m (slot m f .indirect)) _ _) _ _ = _
    rw [slot_write32_f_indirect, hgive]
    intro j hj
    have hj' := congrFun hgive (.data j)
    exact hj'.trans (hempty j hj)
  · exact sameBitmap_f_indirect hf 0 (nblocks_giveBlock m _)
  · intro a hs _
    apply write32_of_disjoint
    simp only [InSlots, f_direct, f_indirect] at hs ⊢
    omega

/-! ### The functions that free blocks -/

/-- What can be accessed when a block was given back and is not accessed any more. -/
theorem okWord_giveBlock {a : Nat} (hm : BitmapOk m) (hlt : b < nblocks m) (hres : ¬ Reserved m b)
    (ha : a / BLKSIZE ≠ b) (hin : a % BLKSIZE + 4 ≤ BLKSIZE) (hlt' : a / BLKSIZE < nblocks m)
    (huse : isFree m (a / BLKSIZE) = false) :
  okWord valid (giveBlock m b) a = true
  := by
  apply (hm.giveBlock hlt hres).okWord
  · rw [nblocks_giveBlock]
    exact hlt'
  · rw [isFree_giveBlock hlt, huse]
    simpa using ha
  · exact hin

/-- A field of the structure can still be accessed when a block of the file was given back. -/
theorem FileOk.okWord_field_giveBlock (hf : FileOk m f) (hb : Owns m f b) {k : Nat}
    (hk : k % 4 = 0) (h : k < FILESIZE) :
  okWord valid (giveBlock m b) (f + k) = true
  := by
  obtain ⟨hhome, hin⟩ := hf.placed.word hk h
  apply okWord_giveBlock hf.bitmap (hf.lt b hb) (hf.safe b hb) _ hin
  · rw [hhome]
    exact hf.home_lt
  · rw [hhome]
    exact hf.home_inUse
  · rw [hhome]
    exact (hf.off_home b hb).symm

/-- The slot of a block can still be accessed when the block was given back. -/
theorem FileOk.okWord_slotAddr_giveBlock (hf : FileOk m f) (hne : dataBlock m f i ≠ 0) :
  okWord valid (giveBlock m (dataBlock m f i)) (slotAddr m f i) = true
  := by
  obtain ⟨hi, hind⟩ := slot_of_dataBlock hne
  have hown := owns_slot (s := .data i) hne
  unfold slotAddr
  split
  case isTrue h =>
    rw [f_direct, Nat.add_assoc]
    simp only [NDIRECT] at h
    apply hf.okWord_field_giveBlock hown
    · omega
    · simp only [FILESIZE]
      omega
  case isFalse h =>
    have hne' := hind (Nat.le_of_not_lt h)
    have hown' := owns_slot (s := .indirect) hne'
    have hdiv : (ind m f * BLKSIZE + 4 * (i - NDIRECT)) / BLKSIZE = ind m f := by
      simp only [NDIRECT, NINDIRECT, BLKSIZE] at hi ⊢
      omega
    apply okWord_giveBlock hf.bitmap (hf.lt _ hown) (hf.safe _ hown)
    · rw [hdiv]
      intro heq
      have hslots := hf.inj .indirect (.data i) hne' heq
      cases hslots
    · simp only [NDIRECT, NINDIRECT, BLKSIZE] at hi ⊢
      omega
    · rw [hdiv]
      exact hf.lt _ hown'
    · rw [hdiv]
      exact hf.inUse _ hown'

/-- The slot of a block that is not there is not found. -/
theorem ends_fileBlockWalk_missing {Q : Except Word Nat → Memory → Prop} {E : Prop} {w : Word}
    (hf : FileOk m f) (hge : NDIRECT ≤ w.toNat) (hind : w.toNat < NINDIRECT + NDIRECT → ind m f = 0)
    (hQ : ∀ r, Q (.error r) m) :
  (fileBlockWalk f w false).Ends valid m Q E
  := by
  unfold fileBlockWalk
  rw [if_neg (Nat.not_lt.mpr hge), ends_ite]
  constructor
  · intro hw
    have hzero : read32 m (f_indirect f) = 0 := BitVec.eq_of_toNat_eq (hind hw)
    unfold needIndirect
    rw [ends_bind, ends_bind, ends_get32]
    refine ⟨hf.okWord_f_indirect, ?_⟩
    rw [if_neg (not_not.mpr hzero), if_neg Bool.false_ne_true, ends_pure, ends_pure]
    exact hQ _
  · intro _
    rw [ends_pure]
    exact hQ _

/-- `file_free_block` empties the slot of the block. -/
theorem ends_fileFreeBlock {E : Prop} {w : Word} (hf : FileOk m f) :
  (fileFreeBlock f w).Ends valid m
    (fun _ m' => FileOk m' f ∧ Shrunk m m' f (fun s => s = .data w.toNat)) E
  := by
  have hnone : dataBlock m f w.toNat = 0 →
      FileOk m f ∧ Shrunk m m f (fun s => s = .data w.toNat) := by
    intro hzero
    refine ⟨hf, (Shrunk.refl m f).congr ?_⟩
    intro s hs
    constructor
    · exact False.elim
    · rintro rfl
      exact hs hzero
  unfold fileFreeBlock
  rw [ends_bind]
  by_cases hslot : w.toNat < NINDIRECT + NDIRECT ∧ (NDIRECT ≤ w.toNat → ind m f ≠ 0)
  · obtain ⟨hw, hind⟩ := hslot
    have hread := read32_slotAddr hw hind
    apply ends_fileBlockWalk_there hf hw hind
    rw [ends_bind, ends_get32, ends_ite]
    refine ⟨hf.okWord_slotAddr hw hind, ?_, ?_⟩
    · intro hne
      have hne' : dataBlock m f w.toNat ≠ 0 := by
        rw [← hread]
        intro h
        exact hne (BitVec.eq_of_toNat_eq h)
      have hlt := hf.lt _ (owns_slot (s := .data w.toNat) hne')
      rw [ends_bind]
      apply ends_freeBlock hf.bitmap hne
      · rw [hread]
        exact hlt
      · rw [ends_bind, ends_set32, ends_pure, hread]
        have hshrunk := shrunk_data hf hne'
        exact ⟨hf.okWord_slotAddr_giveBlock hne', hshrunk.fileOk hf, hshrunk⟩
    · intro hzero
      rw [ends_pure]
      apply hnone
      rw [← hread, Decidable.not_not.mp hzero]
      rfl
  · have hge : NDIRECT ≤ w.toNat := by
      by_contra hlt
      apply hslot
      refine ⟨?_, fun h => absurd h hlt⟩
      simp only [NDIRECT, NINDIRECT, BLKSIZE] at hlt ⊢
      omega
    have hind : w.toNat < NINDIRECT + NDIRECT → ind m f = 0 := by
      intro hw
      by_contra hne
      exact hslot ⟨hw, fun _ => hne⟩
    apply ends_fileBlockWalk_missing hf hge hind
    intro r
    rw [ends_pure]
    apply hnone
    by_contra hne
    exact hslot (slot_of_dataBlock hne)

/-- The indirect block is given back once it holds no blocks. -/
theorem ends_freeIndirect {E : Prop} (hf : FileOk m f)
    (hempty : ∀ i, NDIRECT ≤ i → dataBlock m f i = 0) :
  (freeIndirect f).Ends valid m
    (fun _ m' => FileOk m' f ∧ Shrunk m m' f (fun s => s = .indirect)) E
  := by
  unfold freeIndirect
  rw [ends_bind, ends_get32, ends_ite]
  refine ⟨hf.okWord_f_indirect, ?_, ?_⟩
  · intro hne
    have hne' : ind m f ≠ 0 := by
      intro h
      exact hne (BitVec.eq_of_toNat_eq h)
    have hown := owns_slot (s := .indirect) hne'
    rw [ends_bind]
    apply ends_freeBlock hf.bitmap hne (hf.lt _ hown)
    rw [ends_set32]
    have hshrunk := shrunk_indirect hf hne' hempty
    refine ⟨?_, hshrunk.fileOk hf, hshrunk⟩
    exact hf.okWord_field_giveBlock hown (by decide) (by decide)
  · intro hzero
    rw [ends_pure]
    refine ⟨hf, (Shrunk.refl m f).congr ?_⟩
    intro s hs
    constructor
    · exact False.elim
    · rintro rfl
      apply absurd hs
      rw [slot, ind, Decidable.not_not.mp hzero]
      decide

/-! ### Truncating -/

/-- The slots that a file of `n` blocks does not need. -/
def Beyond (n : Nat) : Slot → Prop
  | .data i => n ≤ i
  | .indirect => n ≤ NDIRECT

/-- A file has no blocks beyond its end. -/
def Trim (m : Memory) (f : Nat) : Prop :=
  ∀ i, dataBlock m f i ≠ 0 → i < blockCount (fileSize m f)

theorem blocksFor_toNat {size : Word} (h : size.toNat ≤ MAXFILESIZE) :
  (blocksFor size).toNat = blockCount size.toNat
  := by
  simp only [MAXFILESIZE, NDIRECT, NINDIRECT, BLKSIZE] at h
  have hsum : (size + BitVec.ofNat 32 BLKSIZE - 1).toNat = size.toNat + BLKSIZE - 1 := by
    rw [BitVec.toNat_sub, BitVec.toNat_add]
    simp only [BLKSIZE, BitVec.toNat_ofNat]
    have hone : BitVec.toNat (1 : Word) = 1 := rfl
    omega
  rw [blocksFor, sdiv_BLKSIZE, hsum]
  · rfl
  · rw [hsum]
    simp only [BLKSIZE]
    omega

/-- The loop of `file_truncate_blocks` empties the slots of the blocks from `lo` on. -/
theorem ends_truncateLoop {E : Prop} {lo n : Nat} (hf : FileOk m f)
    (hn : lo + n ≤ NINDIRECT + NDIRECT) :
  (forUp lo n (fun bno => do
      let _ ← fileFreeBlock f (BitVec.ofNat 32 bno)
      pure ())).Ends valid m
    (fun _ m' => FileOk m' f
      ∧ Shrunk m m' f (fun s => ∃ i, lo ≤ i ∧ i < lo + n ∧ s = .data i)) E
  := by
  apply ends_forUp (fun bno m' => FileOk m' f
    ∧ Shrunk m m' f (fun s => ∃ i, lo ≤ i ∧ i < bno ∧ s = .data i))
  · rintro bno m₁ hlo hhi ⟨hf₁, hshrunk⟩
    have hbno : (BitVec.ofNat 32 bno).toNat = bno := by
      rw [BitVec.toNat_ofNat]
      simp only [NDIRECT, NINDIRECT, BLKSIZE] at hn
      omega
    rw [ends_bind]
    apply (ends_fileFreeBlock hf₁).mono _ id
    rintro _ m₂ ⟨hf₂, hshrunk'⟩
    rw [hbno] at hshrunk'
    rw [ends_pure]
    refine ⟨hf₂, (hshrunk.trans hshrunk').congr ?_⟩
    intro s _
    constructor
    · rintro (⟨i, h, h', rfl⟩ | rfl)
      · exact ⟨i, h, by omega, rfl⟩
      · exact ⟨bno, hlo, by omega, rfl⟩
    · rintro ⟨i, h, h', rfl⟩
      rcases Nat.lt_or_eq_of_le (Nat.le_of_lt_succ h') with h' | rfl
      · exact .inl ⟨i, h, h', rfl⟩
      · exact .inr rfl
  · refine ⟨hf, (Shrunk.refl m f).congr ?_⟩
    intro s _
    constructor
    · exact False.elim
    · rintro ⟨i, h, h', -⟩
      omega

/-- `file_truncate_blocks` empties the slots that a file of the new size does not need. -/
theorem ends_fileTruncateBlocks {E : Prop} {w : Word} (hf : FileOk m f)
    (hsize : fileSize m f ≤ MAXFILESIZE) (hw : w.toNat ≤ MAXFILESIZE) (htrim : Trim m f) :
  (fileTruncateBlocks f w).Ends valid m
    (fun _ m' => FileOk m' f ∧ Shrunk m m' f (Beyond (blockCount w.toNat))) E
  := by
  have hold : (blocksFor (read32 m (f_size f))).toNat = blockCount (fileSize m f) :=
    blocksFor_toNat hsize
  have hnew := blocksFor_toNat hw
  have hle := blockCount_le hsize
  have hle' := blockCount_le hw
  unfold fileTruncateBlocks
  rw [ends_bind, ends_get32, ends_bind, hold, hnew]
  refine ⟨hf.okWord_f_size, ?_⟩
  apply (ends_truncateLoop hf (by omega)).mono _ id
  rintro _ m₁ ⟨hf₁, hloop⟩
  -- all blocks from the new end on are gone
  have hdata : Shrunk m m₁ f (fun s => ∃ i, blockCount w.toNat ≤ i ∧ s = .data i) := by
    apply hloop.congr
    intro s hs
    constructor
    · rintro ⟨i, h, -, rfl⟩
      exact ⟨i, h, rfl⟩
    · rintro ⟨i, h, rfl⟩
      have hlt := htrim i hs
      exact ⟨i, h, by omega, rfl⟩
  rw [ends_ite]
  constructor
  · intro hfew
    have hempty : ∀ i, NDIRECT ≤ i → dataBlock m₁ f i = 0 :=
      fun i hi => hdata.emptied (.data i) ⟨i, Nat.le_trans hfew hi, rfl⟩
    apply (ends_freeIndirect hf₁ hempty).mono _ id
    rintro _ m₂ ⟨hf₂, hind⟩
    refine ⟨hf₂, (hdata.trans hind).congr ?_⟩
    intro s _
    cases s with
    | data i => simp [Beyond]
    | indirect => simp [Beyond, hfew]
  · intro hmany
    rw [ends_pure]
    refine ⟨hf₁, hdata.congr ?_⟩
    intro s _
    cases s with
    | data i => simp [Beyond]
    | indirect => simp [Beyond, hmany]

/-! ### Setting the size -/

theorem blockCount_mono {size size' : Nat} (h : size ≤ size') :
  blockCount size ≤ blockCount size'
  := by
  simp only [blockCount, BLKSIZE]
  omega

/-- What `file_set_size` leaves. -/
structure Resized (m m' : Memory) (f : Nat) (w : Word) : Prop where
  ok : FileOk m' f
  moved : Moved m m' f
  size : fileSize m' f = w.toNat
  same : ∀ a, ¬ InBitmap m a → ¬ InMeta f a → (ind m f ≠ 0 → a / BLKSIZE ≠ ind m f) → m' a = m a
  emptied : w.toNat < fileSize m f → ∀ s, Beyond (blockCount w.toNat) s → slot m' f s = 0
  kept : ∀ s, (w.toNat < fileSize m f → ¬ Beyond (blockCount w.toNat) s) →
    slot m' f s = slot m f s

/-- A file that is resized has no blocks beyond its end. -/
theorem Resized.trim {w : Word} (h : Resized m m' f w) (htrim : Trim m f) :
  Trim m' f
  := by
  intro i hi
  change slot m' f (.data i) ≠ 0 at hi
  rw [h.size]
  rcases Nat.lt_or_ge w.toNat (fileSize m f) with hlt | hge
  · by_contra hbeyond
    exact hi (h.emptied hlt (.data i) (Nat.le_of_not_lt hbeyond))
  · rw [h.kept (.data i) (fun hlt => absurd hlt (Nat.not_lt.mpr hge))] at hi
    exact Nat.lt_of_lt_of_le (htrim i hi) (blockCount_mono hge)

/-- Setting the size after slots were emptied. -/
theorem resized_setSize {w : Word} (hf : FileOk m f) (hf' : FileOk m' f)
    (h : Shrunk m m' f cut) (hlt : w.toNat < fileSize m f → ∀ s, cut s ↔ Beyond (blockCount w.toNat) s)
    (hge : fileSize m f ≤ w.toNat → ∀ s, ¬ cut s) :
  Resized m (setSize m' f w) f w
  := by
  obtain ⟨hok, hmoved, hsize⟩ := setSize_spec hf' w
  have hslot := slot_setSize hf' w
  refine ⟨hok, (h.moved hf).trans hmoved, hsize, ?_, ?_, ?_⟩
  · intro a hbit hmeta hind
    rw [setSize_frame, h.same a hbit (fun hs => hmeta (.inr hs)) hind]
    by_contra hin
    exact hmeta (.inl (by omega))
  · intro hshrink s hs
    rw [hslot]
    exact h.emptied s ((hlt hshrink s).mpr hs)
  · intro s hs
    rw [hslot]
    apply h.kept
    rcases Nat.lt_or_ge w.toNat (fileSize m f) with hshrink | hgrow
    · rw [hlt hshrink]
      exact hs hshrink
    · exact hge hgrow s

/-- `file_set_size` sets a size in the range, and removes the blocks beyond it. -/
theorem ends_fileSetSize {E : Prop} {w : Word} (hf : FileOk m f) (hsize : fileSize m f ≤ MAXFILESIZE)
    (hw : w.toNat ≤ MAXFILESIZE) (htrim : Trim m f) :
  (fileSetSize f w).Ends valid m (fun r m' => r = 0 ∧ Resized m m' f w) E
  := by
  have hmax : MAXFILESIZE < 2 ^ 31 := by decide
  rcases Nat.lt_or_ge w.toNat (fileSize m f) with hlt | hge
  · have hslt := (slt_iff (w := read32 m (f_size f)) (Nat.lt_of_le_of_lt hw hmax)
      (Nat.lt_of_le_of_lt hsize hmax)).mpr hlt
    unfold fileSetSize
    rw [ends_bind]
    unfold truncateTo
    rw [ends_bind, ends_get32, if_pos hslt]
    refine ⟨hf.okWord_f_size, ?_⟩
    apply (ends_fileTruncateBlocks hf hsize hw htrim).mono _ id
    rintro _ m₁ ⟨hf₁, hshrunk⟩
    rw [ends_bind, ends_set32, ends_bind, flushBlock, ends_sync, ends_pure]
    refine ⟨hf₁.okWord_f_size, (setSize_spec hf₁ w).1.valid_self, rfl, ?_⟩
    apply resized_setSize hf hf₁ hshrunk
    · exact fun _ _ => Iff.rfl
    · exact fun h => absurd hlt (Nat.not_lt.mpr h)
  · apply ends_fileSetSize_extend hf hge (Nat.lt_of_le_of_lt hw hmax)
    refine ⟨rfl, ?_⟩
    apply resized_setSize hf hf (Shrunk.refl m f)
    · exact fun h => absurd h (Nat.not_lt.mpr hge)
    · exact fun _ _ => id

end Jos.Fs
