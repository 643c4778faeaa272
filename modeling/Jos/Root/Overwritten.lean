import Jos.Root.Boot
import Jos.Root.Replace

/-!
# Arguments pushed on to page tables

What `sys_envreplace` does when the stack pointer points to where the page directory of the caller
is mapped for the kernel: two entries of the directory are overwritten with the arguments.  Programs
choose their stack pointer and the arguments as they like.
-/

namespace Jos

namespace Root

open Bytes Prog

variable {avail : Finset Nat} {s s1 s' : Kernel}

/-! ### The first environment -/

/-- A kernel with `n` free pages after boot whose first environment was created, with the page `71`
as its directory. -/
structure FirstEnv (n : Nat) (s : Kernel) : Prop where
  wf : Wf (bootAvail n) ∅ s
  fits : Fits (bootAvail n) s
  live : s.Live 0
  dir : s.pgdir 0 = some 71
  kernPgdir : s.kernPgdir = 4
  words : ∀ p i, p ≠ 71 → i < 1024 → s.entry p i = bootWord p i
  upper : ∀ d, NUPDE ≤ d → d < 1024 → d ≠ UVPTX → s.entry 71 d = bootWord 4 d
  unmapped : ∀ a, s.ptes a = 0
  free : HasFree (n - 1) s

/-- The first environment can be created. -/
theorem envAlloc_first {n : Nat} (hn : 1 ≤ n) (hn' : 71 + n ≤ 2 ^ 20) :
  ∃ s0 s, envInit (bootKernel n) = .ok ((), s0) ∧ envAlloc 0 s0 = .ok (.ok 0, s) ∧ FirstEnv n s
    ∧ ∃ fl, EnvInv fl s ∧ s.envFreeList = some 1
  := by
  obtain ⟨s0, heq0, ⟨envs, hs0⟩, hfree⟩ := envInit_ok (bootKernel n)
  obtain ⟨hwf0, hfits0, -⟩ := wf_of_init (bootKernel_afterMemInit hn') heq0
  obtain ⟨l0, hl0⟩ := hwf0.mem
  have hfl0 := envInv_of_init hfree (by rw [hs0])
  have hchain : l0 = List.range' 71 n := by
    have hboot := bootKernel_chain n
    have hlist : s0.pageFreeList = (bootKernel n).pageFreeList := by rw [hs0]
    have hpages : s0.pages = (bootKernel n).pages := by rw [hs0]
    rw [← hlist, ← hpages] at hboot
    exact hl0.chain.unique hboot
  have hlen : l0.length = n := by rw [hchain, List.length_range']
  obtain ⟨hnil, -⟩ | ⟨-, hnil, -⟩ | ⟨e, p, l1, fl1, s1, hfl, hl, heq1, hc, hl1, hfl1⟩ :=
    envAlloc_ok hl0 hfl0 0
  · exact absurd (List.range_eq_nil.mp hnil) (by decide)
  · rw [hnil, List.length_nil] at hlen
    omega
  have he : e.val = 0 := by
    have hlist : s0.envFreeList = some 0 := by rw [hs0]
    rw [hfl] at hfl0
    have hhead := hfl0.chain.1
    rw [hlist] at hhead
    exact (Option.some.inj hhead).symm
  obtain rfl : e = ⟨0, by decide⟩ := Fin.ext he
  have hp : p = 71 := by
    rw [hchain] at hl
    cases n with
    | zero => omega
    | succ n =>
        rw [List.range'_succ] at hl
        exact (List.cons.inj hl).1.symm
  subst hp
  have hpfree : s0.OnFreeList 71 := ⟨l0, hl0.chain, hl ▸ List.mem_cons_self⟩
  have hmem0 : ∀ q i, i < 1024 → s0.entry q i = bootWord q i := by
    intro q i hi
    apply entry_memOfWords bootWord hi
    rw [hs0]
    rfl
  have hkern0 : s0.kernPgdir = 4 := by
    rw [hs0]
    rfl
  refine ⟨s0, s1, heq0, heq1, ?_, fl1, hfl1, ?_⟩
  · constructor
    case wf => exact hwf0.created hc hl1 hfl1
    case fits => exact created_fits hwf0 hfits0 hpfree hc
    case live => exact created_live hc
    case dir => exact hc.pgdir_self
    case kernPgdir =>
      rw [hc.quiet]
      exact hkern0
    case words =>
      intro q i hq hi
      rw [← hmem0 q i hi]
      apply read32_congr
      intro x hx hx'
      have hxq : x = q * PGSIZE + (x - q * PGSIZE) := by omega
      rw [hxq]
      apply hc.fresh.mem q hq
      simp only [PGSIZE] at hx hx' ⊢
      omega
    case upper =>
      intro d hd hd' hne
      rw [hc.fresh.kern d hd hd' hne, hkern0, hmem0 4 d hd']
    case unmapped =>
      intro a
      rw [hc.ptes, Kernel.ptes, Kernel.pte, ptes_of_free (fun e he => (hfree e he).1), refOf_zero]
    case free =>
      use l1, hl1.chain
      rw [hl, List.length_cons] at hlen
      omega
  · rw [hc.quiet]
    have hlink := (hfree 0 (by decide)).2.2
    rw [if_pos (by decide)] at hlink
    exact hlink

/-! ### Writing to the directory -/

/-- Where the kernel finds the entry `953` of the directory in the page `71`. -/
def dirVa : Word :=
  BitVec.ofNat 32 (KERNBASE + 71 * PGSIZE + 4 * 953)

/-- The kernel may write to the entries `953` and `954` of the directory, whatever they are. -/
structure DirMapped (s : Kernel) : Prop where
  dir : s.entry 71 960 = tableEntry 7
  table : s.entry 7 71 = page2pa 71 ||| PTE_P ||| PTE_W

namespace DirMapped

variable (h : DirMapped s)
include h

theorem entries {i : Nat} (hi : i < 8) :
  s.entries 71 (dirVa + BitVec.ofNat 32 i) = some (tableEntry 7, page2pa 71 ||| PTE_P ||| PTE_W)
    ∧ PGOFF (dirVa + BitVec.ofNat 32 i) = 4 * 953 + i
  := by
  have hoff0 : PGOFF dirVa = 4 * 953 := by decide
  obtain ⟨hpdx, hptx, hoff⟩ := page_add (i := i) (by
    rw [hoff0]
    simp only [PGSIZE]
    omega)
  constructor
  · unfold Kernel.entries
    simp only
    rw [hpdx, hptx, show PDX dirVa = 960 by decide, show PTX dirVa = 71 by decide, h.dir,
      show ptePage (tableEntry 7) = 7 by decide, h.table]
    rfl
  · rw [hoff, hoff0]

/-- A byte of them is written. -/
theorem kernStore_eq {i : Nat} (hi : i < 8) (b : Byte) :
  kernStore 71 (dirVa + BitVec.ofNat 32 i) b s
    = .ok ((), { s with mem := write8 s.mem (71 * PGSIZE + 4 * 953 + i) b })
  := by
  obtain ⟨hent, hoff⟩ := h.entries hi
  have hallow : s.allows 71 PTE_W (dirVa + BitVec.ofNat 32 i) = true := by
    unfold Kernel.allows
    rw [hent]
    decide
  have htrans : s.translate 71 (dirVa + BitVec.ofNat 32 i)
      = some (71 * PGSIZE + 4 * 953 + i) := by
    unfold Kernel.translate
    rw [hent]
    simp only
    rw [hoff, show ptePage (page2pa 71 ||| PTE_P ||| PTE_W) = 71 by decide, Nat.add_assoc]
  rw [kernStore, get_bind, if_pos hallow, htrans]
  rfl

end DirMapped

/-- Only the two entries of the directory were written. -/
structure DirStored (s s' : Kernel) : Prop where
  quiet : s' = { s with mem := s'.mem }
  mem : ∀ x, x < 71 * PGSIZE + 4 * 953 ∨ 71 * PGSIZE + 4 * 955 ≤ x → s'.mem x = s.mem x

theorem DirStored.entry (h : DirStored s s') {q i : Nat} (hi : i < 1024)
    (hne : q ≠ 71 ∨ i < 953 ∨ 955 ≤ i) :
  s'.entry q i = s.entry q i
  := by
  apply read32_congr
  intro x hx hx'
  apply h.mem
  simp only [PGSIZE] at hx hx' ⊢
  omega

theorem DirStored.dirMapped (h : DirStored s s') (hm : DirMapped s) :
  DirMapped s'
  := by
  constructor
  case dir =>
    rw [h.entry (by decide) (by decide)]
    exact hm.dir
  case table =>
    rw [h.entry (by decide) (by decide)]
    exact hm.table

/-- Two words are written to the entries. -/
theorem kernStores_dir (hm : DirMapped s) (w0 w1 : Word) :
  ∃ s1 s2, kernStore32 71 dirVa w0 s = .ok ((), s1) ∧ kernStore32 71 (dirVa + 4) w1 s1 = .ok ((), s2)
    ∧ DirStored s s2 ∧ s2.entry 71 953 = w0 ∧ s2.entry 71 954 = w1
  := by
  -- each byte is written to a state like the first one
  have hstep : ∀ {t : Kernel} (i : Nat) (b : Byte), DirStored s t → i < 8 →
      ∃ t', kernStore 71 (dirVa + BitVec.ofNat 32 i) b t = .ok ((), t') ∧ DirStored s t'
        ∧ t'.mem (71 * PGSIZE + 4 * 953 + i) = b
        ∧ ∀ j, j ≠ i → t'.mem (71 * PGSIZE + 4 * 953 + j) = t.mem (71 * PGSIZE + 4 * 953 + j) := by
    intro t i b ht hi
    refine ⟨_, (ht.dirMapped hm).kernStore_eq hi b, ⟨?_, ?_⟩, ?_, ?_⟩
    · rw [ht.quiet]
    · intro x hx
      simp only [write8]
      rw [if_neg]
      · exact ht.mem x hx
      · simp only [PGSIZE] at hx ⊢
        omega
    · simp only [write8, if_true]
    · intro j hj
      simp only [write8]
      rw [if_neg (by omega)]
  obtain ⟨t0, e0, h0, m0, -⟩ := hstep 0 (byteOf w0 0) ⟨rfl, fun _ _ => rfl⟩ (by decide)
  obtain ⟨t1, e1, h1, m1, k1⟩ := hstep 1 (byteOf w0 1) h0 (by decide)
  obtain ⟨t2, e2, h2, m2, k2⟩ := hstep 2 (byteOf w0 2) h1 (by decide)
  obtain ⟨t3, e3, h3, m3, k3⟩ := hstep 3 (byteOf w0 3) h2 (by decide)
  obtain ⟨t4, e4, h4, m4, k4⟩ := hstep 4 (byteOf w1 0) h3 (by decide)
  obtain ⟨t5, e5, h5, m5, k5⟩ := hstep 5 (byteOf w1 1) h4 (by decide)
  obtain ⟨t6, e6, h6, m6, k6⟩ := hstep 6 (byteOf w1 2) h5 (by decide)
  obtain ⟨t7, e7, h7, m7, k7⟩ := hstep 7 (byteOf w1 3) h6 (by decide)
  refine ⟨t3, t7, ?_, ?_, h7, ?_, ?_⟩
  · have hva : dirVa + BitVec.ofNat 32 0 = dirVa := by decide
    rw [hva] at e0
    rw [kernStore32, bind_of_eq e0]
    exact (bind_of_eq e1).trans ((bind_of_eq e2).trans e3)
  · rw [kernStore32]
    exact (bind_of_eq e4).trans ((bind_of_eq e5).trans ((bind_of_eq e6).trans e7))
  · apply read32_of_bytes
    intro i hi
    have hcases : i = 0 ∨ i = 1 ∨ i = 2 ∨ i = 3 := by omega
    have hlast : t7.mem (71 * PGSIZE + 4 * 953 + i) = t3.mem (71 * PGSIZE + 4 * 953 + i) := by
      rw [k7 i (by omega), k6 i (by omega), k5 i (by omega), k4 i (by omega)]
    rw [hlast]
    rcases hcases with rfl | rfl | rfl | rfl
    · rw [← m0]
      exact (k3 0 (by decide)).trans ((k2 0 (by decide)).trans (k1 0 (by decide)))
    · rw [← m1]
      exact (k3 1 (by decide)).trans (k2 1 (by decide))
    · rw [← m2]
      exact k3 2 (by decide)
    · exact m3
  · apply read32_of_bytes
    intro i hi
    have hcases : i = 0 ∨ i = 1 ∨ i = 2 ∨ i = 3 := by omega
    rcases hcases with rfl | rfl | rfl | rfl
    · rw [← m4]
      exact (k7 4 (by decide)).trans ((k6 4 (by decide)).trans (k5 4 (by decide)))
    · rw [← m5]
      exact (k7 5 (by decide)).trans (k6 5 (by decide))
    · rw [← m6]
      exact k7 6 (by decide)
    · exact m7

/-! ### Replacing the program -/

/-- From `s` to `s'` the entries `953` and `954` of the directory became the arguments. -/
structure Overwritten (argc args : Word) (s s' : Kernel) : Prop where
  quiet : ∃ eip esp type, s' = { s with
    mem := s'.mem
    envs := Function.update s.envs 0 (reloaded (s.envs 0) eip esp type) }
  argc : s'.entry 71 953 = argc
  args : s'.entry 71 954 = args
  other : ∀ q i, i < 1024 → q ≠ 71 ∨ i < 953 ∨ 955 ≤ i → s'.entry q i = s.entry q i

/-- The kernel right before the arguments are pushed. -/
structure BeforePush (n : Nat) (s s1 : Kernel) : Prop where
  wf : Wf (bootAvail n) ∅ s1
  fits : Fits (bootAvail n) s1
  loaded : Loaded (bootAvail n) ⟨0, by decide⟩ s s1
  stack : Writable (s1.pteAt 0 (BitVec.ofNat 32 (USTACKTOP - PGSIZE)))

/-- Page tables of the kernel are not written to by the loader. -/
theorem FirstEnv.kernTable {n : Nat} (h : FirstEnv n s)
    (hl : Loaded (bootAvail n) ⟨0, by decide⟩ s s1) :
  s1.entry 7 71 = page2pa 71 ||| PTE_P ||| PTE_W
  := by
  have hkern : s.slotRef (.kern ⟨960, by decide⟩) = some 7 := by
    rw [Kernel.slotRef, if_pos ⟨by decide, by decide⟩, h.kernPgdir,
      h.words 4 960 (by decide) (by decide)]
    decide
  have hword : s.entry 7 71 = page2pa 71 ||| PTE_P ||| PTE_W := by
    rw [h.words 7 71 (by decide) (by decide)]
    decide
  rw [← hword]
  by_contra hne
  obtain ⟨l, hm⟩ := h.wf.mem
  obtain ⟨a, -, ha, -⟩ | hg := hl.changed 7 71 (by decide) hne
  · have heq := hm.balanced.owned (.kern ⟨960, by decide⟩) (pageSlot a) 7 trivial hkern ha
    cases heq
  · exact hg.alone _ hkern

/-- The program is loaded, and then the arguments are pushed over two entries of the directory. -/
theorem envReplace_overwrites {n : Nat} {binary : Binary} (h : FirstEnv n s)
    (hcur : s.curenv = some 0) (hesp : (s.envs 0).envTf.tfEsp = dirVa + 8) (hlink : Linked binary)
    (hfree : HasFree (room binary) s) :
  ∃ s1, BeforePush n s s1 ∧ ∀ type argc args, ∃ s',
    envReplace binary type argc args s = .ok ((), s') ∧ Overwritten argc args s1 s'
  := by
  have hmid : Midway False (bootAvail n) ⟨0, by decide⟩ 71 s (room binary) s :=
    ⟨h.wf, h.fits, Loaded.refl h.wf _, h.dir, Or.inr hfree, rfl⟩
  obtain ⟨_, s1, heq1, hmid1, -, hreach⟩ := (loadIcode_ok (m := 0) h.wf hlink hmid).returns id
  use s1
  constructor
  · refine ⟨hmid1.wf, hmid1.fits, hmid1.loaded, ?_⟩
    exact hreach (BitVec.ofNat 32 (USTACKTOP - PGSIZE)) (by decide) (Or.inr (Or.inr (by decide)))
  · intro type argc args
    have hdir : DirMapped s1 := by
      constructor
      case dir =>
        have hup := hmid1.loaded.upper ⟨0, by decide⟩ 960 (by decide) (by decide)
        rw [Kernel.pde, Kernel.pde, hmid1.dir, h.dir] at hup
        change s1.entry 71 960 = s.entry 71 960 at hup
        rw [hup, h.upper 960 (by decide) (by decide) (by decide)]
        decide
      case table => exact h.kernTable hmid1.loaded
    have hcur1 : s1.curenv = some 0 := by
      obtain ⟨eip, esp, type, hq⟩ := hmid1.loaded.quiet
      rw [hq, ← hcur]
    have hpg1 : (s1.envs 0).envPgdir = some 71 := by
      have hdir1 := hmid1.dir
      rw [Kernel.pgdir] at hdir1
      split at hdir1
      · cases hdir1
      · exact hdir1
    have hust : (s1.envs 0).envTf.tfEsp - 8 = dirVa := by
      rw [hmid1.esp, hesp, BitVec.add_sub_cancel]
    obtain ⟨t1, t2, ht1, ht2, hst, hargc, hargs⟩ := kernStores_dir hdir argc args
    use t2.setEnv 0 (reloaded (t2.envs 0) (t2.envs 0).envTf.tfEip dirVa type)
    constructor
    · rw [envReplace, bind_of_eq (curenv_eq hcur), bind_of_eq heq1, get_bind]
      simp only
      rw [bind_of_eq (curPgdir_eq hcur1 hpg1), hust, bind_of_eq ht1, bind_of_eq ht2]
      rfl
    · constructor
      case quiet =>
        use (t2.envs 0).envTf.tfEip, dirVa, type
        have hq := hst.quiet
        rw [Kernel.setEnv, hq]
      case argc => exact hargc
      case args => exact hargs
      case other => exact fun q i hi hne => hst.entry hi hne

/-- Entering the kernel from the first environment. -/
theorem FirstEnv.entered {n : Nat} (h : FirstEnv n s) (tf : Trapframe) :
  FirstEnv n (entered s 0 tf)
  := by
  have hpg : (s.setEnv 0 { s.envs 0 with envTf := tf }).pgdir 0 = s.pgdir 0 := by
    rw [Kernel.setEnv_pgdir, Kernel.pgdir]
  obtain ⟨hpgdir, hpde, hpte, hslot⟩ := Kernel.setEnv_views hpg
  constructor
  case wf => exact h.wf.entered h.live tf
  case fits => exact fits_entered h.fits 0 tf
  case live =>
    have hlive := h.live
    rw [Kernel.Live] at hlive ⊢
    simpa [Root.entered, Kernel.setEnv] using hlive
  case dir => exact (hpgdir 0).trans h.dir
  case kernPgdir => exact h.kernPgdir
  case words => exact h.words
  case upper => exact h.upper
  case unmapped => exact fun a => (hpte a.1 a.2.1 a.2.2).trans (h.unmapped a)
  case free => exact h.free

/-! ### An image -/

/-- An image with one segment of sixteen bytes, of which four are in the file. -/
def smallImage : Binary
  | 0 => 0x7F | 1 => 0x45 | 2 => 0x4C | 3 => 0x46
  | 24 => 0x20 | 26 => 0x80
  | 28 => 52 | 44 => 1
  | 52 => 1 | 56 => 84 | 60 => 0x20 | 62 => 0x80 | 68 => 4 | 72 => 16
  | _ => 0

theorem smallImage_linked :
  Linked smallImage
  := by
  intro i hi _
  have hnum : smallImage.ePhnum = 1 := by decide
  obtain rfl : i = 0 := by omega
  decide

theorem smallImage_room :
  room smallImage = 5
  := by decide

end Root

end Jos
