import Mathlib.Algebra.BigOperators.Intervals
import Jos.Kern.Elf
import Jos.Root.Regions

/-!
# Replacing the program of an environment

What `load_icode` and `env_replace` of `kern/env.c` do to a well-formed kernel.  As for the regions
they are made of, `E` is what may be wrong when something panics or faults.
-/

namespace Jos

namespace Root

open Bytes Prog

variable {E : Prop} {avail : Finset Nat} {e : Fin NENV} {pg : Nat} {s s0 s1 s' : Kernel}

/-! ### Loading an image -/

/-- How many pages the `i`-th segment of an image spans. -/
def segmentPages (binary : Binary) (i : Nat) : Nat :=
  if binary.pType i = ELF_PROG_LOAD then regionPages (binary.pVa i) (binary.pMemsz i) else 0

/-- With this many free pages an image can be loaded: each of its pages and the stack may need a
page table, and the page that is mapped last is taken before the one it replaces is given back. -/
def room (binary : Binary) : Nat :=
  2 * (∑ i ∈ Finset.Ico 0 binary.ePhnum, segmentPages binary i) + 3

/-- What the linker makes sure of for the programs in the kernel: the segments to be loaded are
as large in memory as in the file, at least, and are in the lower half of the addresses. -/
def Linked (binary : Binary) : Prop :=
  ∀ i < binary.ePhnum, binary.pType i = ELF_PROG_LOAD →
    (binary.pVa i).toNat + (binary.pMemsz i).toNat + PGSIZE ≤ 2 ^ 31
      ∧ (binary.pFilesz i).toNat ≤ (binary.pMemsz i).toNat

/-- Whether a page number is that of a page of a segment of an image. -/
def ImagePage (binary : Binary) (n : Nat) : Prop :=
  ∃ i < binary.ePhnum, binary.pType i = ELF_PROG_LOAD
    ∧ RegionPage (binary.pVa i) (binary.pMemsz i) n

/-- Whether an address is in a page of a segment of an image. -/
def InImage (binary : Binary) (a : Word) : Prop :=
  ∃ i < binary.ePhnum, binary.pType i = ELF_PROG_LOAD
    ∧ InRegion (binary.pVa i) (binary.pMemsz i) a

/-- The addresses of a segment are in its pages. -/
theorem inRegion_add {va len : Word} (h : va.toNat + len.toNat + PGSIZE ≤ 2 ^ 31) {i : Nat}
    (hi : i < len.toNat) :
  (va + BitVec.ofNat 32 i).toNat < UTOP ∧ InRegion va len (va + BitVec.ofNat 32 i)
  := by
  have hutop : 2 ^ 31 ≤ UTOP := by decide
  have hadd : (va + BitVec.ofNat 32 i).toNat = va.toNat + i := by
    rw [BitVec.toNat_add, BitVec.toNat_ofNat]
    omega
  simp only [PGSIZE] at h
  rw [InRegion, regionPages, hadd]
  omega

section Image

variable {binary : Binary} {m : Nat} (hs0 : Wf avail ∅ s0) (hlink : Linked binary)
include hs0 hlink

/-- A segment is loaded. -/
theorem loadSegment_ok {i : Nat} (hi : i < binary.ePhnum)
    (h : Midway E avail e pg s0 (2 * segmentPages binary i + m + 1) s) :
  (loadSegment pg binary i).EndsUnless E s (fun _ s' => Midway E avail e pg s0 (m + 1) s'
    ∧ (E ∨ Spares e (ImagePage binary) s s')
    ∧ (∀ a, Writable (s.ptes a) → Writable (s'.ptes a))
    ∧ ∀ a : Word, binary.pType i = ELF_PROG_LOAD → InRegion (binary.pVa i) (binary.pMemsz i) a →
      Writable (s'.pteAt e a))
  := by
  rw [loadSegment]
  by_cases htype : binary.pType i = ELF_PROG_LOAD
  · obtain ⟨hend, hsz⟩ := hlink i hi htype
    rw [segmentPages, if_pos htype] at h
    rw [if_neg (not_not.mpr htype)]
    apply (regionAlloc_ok hs0 hend h).bind
    rintro _ s1 ⟨hmid1, hspares1, hkeep, hseg⟩
    obtain ⟨l1, hl1⟩ := hmid1.wf.mem
    -- the file's part
    have hcopy : (memmove pg (binary.pVa i) binary (binary.pOffset i).toNat
        (binary.pFilesz i).toNat).EndsUnless E s1
        (fun _ s' => UserStored e s1 s' ∧ Spares e (ImagePage binary) s1 s') := by
      apply storeLoop_ok (ImagePage binary) hmid1
      intro k hk
      obtain ⟨hlt, hin⟩ := inRegion_add hend (Nat.lt_of_lt_of_le hk hsz)
      exact ⟨hlt, ⟨i, hi, htype, hin⟩, Or.inr (hseg _ hin)⟩
    apply hcopy.bind
    rintro _ s2 ⟨hst2, hspares2⟩
    have hmid2 := hmid1.stored hst2
    obtain ⟨l2, hl2⟩ := hmid2.wf.mem
    -- and the rest
    have hclear : (memset pg (binary.pVa i + binary.pFilesz i) 0
        (binary.pMemsz i - binary.pFilesz i).toNat).EndsUnless E s2
        (fun _ s' => UserStored e s2 s' ∧ Spares e (ImagePage binary) s2 s') := by
      apply storeLoop_ok (ImagePage binary) hmid2
      intro k hk
      have hsub : (binary.pMemsz i - binary.pFilesz i).toNat
          = (binary.pMemsz i).toNat - (binary.pFilesz i).toNat :=
        BitVec.toNat_sub_of_le hsz
      have haddr : binary.pVa i + binary.pFilesz i + BitVec.ofNat 32 k
          = binary.pVa i + BitVec.ofNat 32 ((binary.pFilesz i).toNat + k) := by
        apply BitVec.eq_of_toNat_eq
        simp only [BitVec.toNat_add, BitVec.toNat_ofNat]
        omega
      obtain ⟨hlt, hin⟩ := inRegion_add hend
        (show (binary.pFilesz i).toNat + k < (binary.pMemsz i).toNat by omega)
      rw [haddr]
      refine ⟨hlt, ⟨i, hi, htype, hin⟩, Or.inr ?_⟩
      rw [← ptes_pteAddr s2 e hlt, hst2.ptes hl1]
      exact hseg _ hin
    apply hclear.mono
    rintro _ s3 ⟨hst3, hspares3⟩
    have hptes : s3.ptes = s1.ptes := (hst3.ptes hl2).trans (hst2.ptes hl1)
    refine ⟨hmid2.stored hst3, ?_, ?_, ?_⟩
    · refine hspares1.imp_right ?_
      intro hspares
      apply (hspares.mono _).trans (hspares2.trans hspares3)
      exact fun n hn => ⟨i, hi, htype, hn⟩
    · intro a ha
      rw [hptes]
      exact hkeep a ha
    · intro a _ hin
      have hwr := hseg a hin
      have hlt : a.toNat < UTOP := by
        have hutop : 2 ^ 31 ≤ UTOP := by decide
        simp only [InRegion, regionPages, PGSIZE] at hin hend
        omega
      rw [← ptes_pteAddr s1 e hlt] at hwr
      rw [← ptes_pteAddr s3 e hlt, hptes]
      exact hwr
  · rw [if_pos htype, endsUnless_pure]
    exact ⟨h.mono (by omega), Or.inr (.refl e _ s), fun _ ha => ha, fun a ht => (htype ht).elim⟩

/-- After the first `k` segments they are loaded. There are pages for the others and for the
stack, and `m` more. -/
structure SegmentsAt (E : Prop) (avail : Finset Nat) (e : Fin NENV) (pg : Nat) (s0 : Kernel)
    (binary : Binary) (m k : Nat) (s : Kernel) : Prop where
  midway : Midway E avail e pg s0
    (2 * (∑ i ∈ Finset.Ico k binary.ePhnum, segmentPages binary i) + 3 + m) s
  image : ∀ a : Word, a.toNat < UTOP → (∃ i < k, binary.pType i = ELF_PROG_LOAD
    ∧ InRegion (binary.pVa i) (binary.pMemsz i) a) → Writable (s.pteAt e a)

/-- All segments are loaded. -/
theorem loadSegments_ok (h : Midway E avail e pg s0 (room binary + m) s) :
  (forUp 0 binary.ePhnum (loadSegment pg binary)).EndsUnless E s
    (fun _ s' => SegmentsAt E avail e pg s0 binary m binary.ePhnum s'
      ∧ (E ∨ Spares e (ImagePage binary) s s'))
  := by
  suffices hloop : (forUp 0 binary.ePhnum (loadSegment pg binary)).EndsUnless E s
      (fun _ s' => SegmentsAt E avail e pg s0 binary m (0 + binary.ePhnum) s'
        ∧ (E ∨ Spares e (ImagePage binary) s s')) by
    rw [Nat.zero_add] at hloop
    exact hloop
  apply EndsUnless.forUp (fun k s' => SegmentsAt E avail e pg s0 binary m k s'
    ∧ (E ∨ Spares e (ImagePage binary) s s'))
  · rintro k t _ hk ⟨hat, hspares⟩
    rw [Nat.zero_add] at hk
    have hmid := hat.midway
    rw [Finset.sum_eq_sum_Ico_succ_bot hk] at hmid
    have hn : 2 * (segmentPages binary k + ∑ i ∈ Finset.Ico (k + 1) binary.ePhnum,
          segmentPages binary i) + 3 + m
        = 2 * segmentPages binary k + (2 * (∑ i ∈ Finset.Ico (k + 1) binary.ePhnum,
          segmentPages binary i) + 2 + m) + 1 := by omega
    rw [hn] at hmid
    apply (loadSegment_ok hs0 hlink hk hmid).mono
    rintro _ t' ⟨hmid', hspares', hkeep, hseg⟩
    refine ⟨⟨hmid'.mono (by omega), ?_⟩, ?_⟩
    · rintro a hlt ⟨i, hi, htype, hin⟩
      by_cases hik : i = k
      · subst hik
        exact hseg a htype hin
      · rw [← ptes_pteAddr t' e hlt]
        apply hkeep
        rw [ptes_pteAddr]
        exact hat.image a hlt ⟨i, by omega, htype, hin⟩
    · obtain hE | hspares := hspares
      · exact Or.inl hE
      · exact hspares'.imp_right hspares.trans
  · refine ⟨⟨h, ?_⟩, Or.inr (.refl e _ s)⟩
    rintro a _ ⟨i, hi, -⟩
    omega

/-- Whether the environment `e` may write at `a` once an image is loaded. -/
def Reaches (binary : Binary) (e : Fin NENV) (s : Kernel) (a : Word) : Prop :=
  Writable (s.pteAt e a) ∨ InImage binary a ∨ a.toNat / PGSIZE = USTACKTOP / PGSIZE - 1

omit hs0 in
/-- The stack is in none of the pages of an image. -/
theorem not_imagePage_stack :
  ¬ ImagePage binary (USTACKTOP / PGSIZE - 1)
  := by
  rintro ⟨i, hi, htype, hin⟩
  obtain ⟨hend, -⟩ := hlink i hi htype
  have hstack : 2 ^ 31 / 4096 ≤ USTACKTOP / PGSIZE - 1 := by decide
  simp only [RegionPage, regionPages, PGSIZE] at hin hend hstack
  omega

/-- From `s` to `s'` an image was loaded. The pages that are mapped at one place only, which is not
in the image, are mapped there again with the bytes they had. -/
structure LoadedApart (binary : Binary) (e : Fin NENV) (s s' : Kernel) : Prop where
  others : Spares e (fun n => ImagePage binary n ∨ n = USTACKTOP / PGSIZE - 1) s s'
  stack : ∀ q, Sole s (stackPte e) q → Remapped (stackPte e) q s s'

omit hs0 in
/-- The image is loaded first, and then the stack is allocated. -/
theorem LoadedApart.of_stack {s2 : Kernel} (h : Spares e (ImagePage binary) s s1)
    (h' : Spares e (fun _ => False) s1 s2) (hstack : StackRemapped e s2 s') :
  LoadedApart binary e s s'
  := by
  constructor
  case others =>
    apply (h.mono fun _ => Or.inl).trans
    apply (h'.mono fun _ hn => hn.elim).trans
    exact hstack.others.mono fun _ => Or.inr
  case stack =>
    intro q hq
    have hpage : (BitVec.ofNat 32 (USTACKTOP - PGSIZE)).toNat / PGSIZE = USTACKTOP / PGSIZE - 1 := by
      decide
    have h1 : Intact (stackPte e) q s s1 := by
      apply h _ _ q _ hq
      rw [hpage]
      exact not_imagePage_stack hlink
    have h2 : Intact (stackPte e) q s1 s2 := h' _ _ q id h1.sole
    have h3 := hstack.stack q h2.sole
    refine ⟨h3.pte, h3.sole, ?_⟩
    intro o ho
    rw [h3.bytes o ho, h2.bytes o ho, h1.bytes o ho]

/-- An image is loaded, and the environment may write to its pages, to its stack and to what it
could write to. -/
theorem loadIcode_ok (h : Midway E avail e pg s0 (room binary + m) s) :
  (loadIcode e binary).EndsUnless E s (fun _ s' => Midway E avail e pg s0 (m + 1) s'
    ∧ (E ∨ LoadedApart binary e s s')
    ∧ ∀ a : Word, a.toNat < UTOP → Reaches binary e s a → Writable (s'.pteAt e a))
  := by
  have hlive : (s.envs e).envStatus ≠ .ENV_FREE := by
    intro hfree
    have hdir := h.dir
    rw [Kernel.pgdir, if_pos hfree] at hdir
    cases hdir
  have hpg : (s.envs e).envPgdir = some pg := by
    have hdir := h.dir
    rw [Kernel.pgdir, if_neg hlive] at hdir
    exact hdir
  have hself : Midway E avail e pg s (room binary + m) s :=
    ⟨h.wf, h.fits, Loaded.refl h.wf e, h.dir, h.free, rfl⟩
  rw [loadIcode, endsUnless_get_bind, hpg, endsUnless_bind_of_eq (show Prog.orElse (some pg)
    (Prog.panic "PADDR called with invalid kva 00000000") s = .ok (pg, s) from rfl)]
  apply ((loadSegments_ok hs0 hlink h).and (loadSegments_ok h.wf hlink hself)).bind
  rintro _ s1 ⟨⟨hat, hspares⟩, hat', -⟩
  rw [endsUnless_modify_bind]
  obtain ⟨hwf, hfits, hl, hptes, hdir⟩ :=
    hat.midway.reload binary.eEntry (s1.envs e).envTf.tfEsp (s1.envs e).envType
  have hmid2 : Midway E avail e pg s0 (m + 3) (s1.setEnv e { s1.envs e with
      envTf := { (s1.envs e).envTf with tfEip := binary.eEntry } }) := by
    refine ⟨hwf, hfits, hl, hdir, ?_, ?_⟩
    · have hfree := hat.midway.free
      rw [Finset.Ico_self, Finset.sum_empty, Nat.add_comm] at hfree
      exact hfree
    · rw [← hat.midway.esp]
      simp [Kernel.setEnv]
  apply (stackAlloc_ok hs0 hmid2).mono
  rintro _ s' ⟨hmid, hremapped, hkeep, hstack⟩
  refine ⟨hmid, ?_, ?_⟩
  · obtain hE | hspares := hspares
    · exact Or.inl hE
    · refine hremapped.imp_right ?_
      apply LoadedApart.of_stack hlink hspares
      apply spares_setEnv
      rw [Kernel.setEnv_pgdir, Kernel.pgdir]
  intro a hlt ha
  have hbefore : Writable (s1.pteAt e a) → Writable (s'.pteAt e a) := by
    intro hw
    rw [← ptes_pteAddr s' e hlt]
    apply hkeep
    exact (congrFun hptes (pteAddr e a hlt)).symm ▸ hw
  obtain hw | himage | hpage := ha
  · apply hbefore
    rw [← ptes_pteAddr s1 e hlt]
    exact hat'.midway.loaded.writable _ hw
  · exact hbefore (hat.image a hlt himage)
  · exact hstack a hpage

end Image

/-! ### Pushing the arguments -/

/-- A word is written, unless one of its bytes may not be. -/
theorem kernStore32_ends {n : Nat} (h : Midway E avail e pg s0 n s) {va : Word}
    (hw : ∀ i < 4, (va + BitVec.ofNat 32 i).toNat < UTOP
      ∧ (E ∨ Writable (s.pteAt e (va + BitVec.ofNat 32 i)))) (w : Word) :
  (kernStore32 pg va w).EndsUnless E s (fun _ s' => UserStored e s s')
  := by
  have hloop := storeLoop_ok (fun _ => True) h va (byteOf w) (fun i hi =>
    ⟨(hw i hi).1, trivial, (hw i hi).2⟩)
  have heq : kernStore32 pg va w
      = forUp 0 4 (fun i => kernStore pg (va + BitVec.ofNat 32 i) (byteOf w i)) := by
    have hva : va + BitVec.ofNat 32 0 = va := by simp
    simp only [forUp, hva, bind_pure_unit]
    rfl
  rw [heq]
  exact hloop.mono (fun _ _ hst => hst.1)

/-- The program of the current environment is replaced. -/
theorem envReplace_ok {binary : Binary} (hs : Wf avail ∅ s) (hfits : Fits avail s)
    (hlink : Linked binary) (hcur : s.curenv = some e.val) (hlive : s.Live e)
    (hfree : E ∨ HasFree (room binary) s)
    (hesp : ∀ i < 8, ((s.envs e).envTf.tfEsp - 8 + BitVec.ofNat 32 i).toNat < UTOP
      ∧ (E ∨ Reaches binary e s ((s.envs e).envTf.tfEsp - 8 + BitVec.ofNat 32 i)))
    (type : EnvType) (argc argobt : Word) :
  (envReplace binary type argc argobt).EndsUnless E s (fun _ s' =>
    Wf avail ∅ s' ∧ Fits avail s' ∧ Loaded avail e s s')
  := by
  obtain ⟨fl, hfl⟩ := hs.env
  obtain ⟨pg, -, hdir⟩ := hfl.live_pgdir hlive
  have hmid : Midway E avail e pg s (room binary) s :=
    ⟨hs, hfits, Loaded.refl hs e, hdir, hfree, rfl⟩
  rw [envReplace, endsUnless_bind_of_eq (curenv_eq hcur)]
  apply (loadIcode_ok (m := 0) hs hlink hmid).bind
  rintro _ s1 ⟨hmid1, -, hreach⟩
  obtain ⟨l1, hl1⟩ := hmid1.wf.mem
  have hcur1 : s1.curenv = some e.val := by
    obtain ⟨eip, esp, type, hq⟩ := hmid1.loaded.quiet
    rw [hq, ← hcur]
  have hpg1 : (s1.envs e).envPgdir = some pg := by
    have hdir1 := hmid1.dir
    rw [Kernel.pgdir] at hdir1
    split at hdir1
    · cases hdir1
    · exact hdir1
  rw [endsUnless_get_bind]
  simp only
  rw [endsUnless_bind_of_eq (curPgdir_eq hcur1 hpg1), hmid1.esp]
  have hw1 : ∀ i < 8, ((s.envs e).envTf.tfEsp - 8 + BitVec.ofNat 32 i).toNat < UTOP
      ∧ (E ∨ Writable (s1.pteAt e ((s.envs e).envTf.tfEsp - 8 + BitVec.ofNat 32 i))) := by
    intro i hi
    obtain ⟨hlt, hr⟩ := hesp i hi
    exact ⟨hlt, hr.imp_right (hreach _ hlt)⟩
  apply (kernStore32_ends hmid1 (fun i hi => hw1 i (by omega)) argc).bind
  intro _ s2 hst2
  have hmid2 := hmid1.stored hst2
  obtain ⟨l2, hl2⟩ := hmid2.wf.mem
  have hargs : (kernStore32 pg ((s.envs e).envTf.tfEsp - 8 + 4) argobt).EndsUnless E s2
      (fun _ s' => UserStored e s2 s') := by
    apply kernStore32_ends hmid2
    intro i hi
    have haddr : (s.envs e).envTf.tfEsp - 8 + 4 + BitVec.ofNat 32 i
        = (s.envs e).envTf.tfEsp - 8 + BitVec.ofNat 32 (4 + i) := by
      rw [BitVec.ofNat_add, ← BitVec.add_assoc]
      rfl
    obtain ⟨hlt, hr⟩ := hw1 (4 + i) (by omega)
    rw [haddr]
    refine ⟨hlt, hr.imp_right ?_⟩
    rw [← ptes_pteAddr s1 e hlt, ← ptes_pteAddr s2 e hlt, hst2.ptes hl1]
    exact id
  apply hargs.bind
  intro _ s3 hst3
  rw [endsUnless_modify]
  obtain ⟨hwf, hfits', hl, -, -⟩ := (hmid2.stored hst3).reload
    (s3.envs e).envTf.tfEip ((s.envs e).envTf.tfEsp - 8) type
  exact ⟨hwf, hfits', hl⟩

end Root

end Jos
