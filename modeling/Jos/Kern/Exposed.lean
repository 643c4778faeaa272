import Jos.Kern.EnvIds
import Jos.Kern.MemInit

/-!
# What environments can read above `UTOP`

`mem_init` maps the arrays `pages` and `envs` for environments to read, each in a window of
the size of a page table, whatever the size of the array.  `env_setup_vm` copies the
windows into the directory of every environment.  Behind the arrays come a gap, which
`page_init` leaves out, and pages the page allocator hands to environments and uses for
page tables.  All of this lies in the window of `envs`.
-/

namespace Jos

open Bytes

variable {avail : Finset Nat} {b : BootInfo} {a : BootArrays} {l fl : List Nat} {s s' : Kernel}

/-! ### The purpose of the windows -/

/-- The page `p` holds a part of the `size` bytes at the kernel address `kva`. -/
def PartOf (kva size p : Nat) : Prop :=
  PADDR kva < (p + 1) * PGSIZE ∧ p * PGSIZE < PADDR kva + size

/-- The page `p` is the directory or a page table of the environment `e`. -/
def Kernel.OwnPaging (s : Kernel) (e p : Nat) : Prop :=
  s.pgdir e = some p ∨ ∃ d < 1024, refOf (s.pde e d) = some p

/-- Above `UTOP` the environment `e` can only read the arrays and its own page tables, and it
can write nothing. -/
def Confined (b : BootInfo) (a : BootArrays) (s : Kernel) (e : Nat) : Prop :=
  ∀ pg va pa, s.pgdir e = some pg → UTOP ≤ va.toNat → s.userReadable pg va = true →
    s.translate pg va = some pa →
    (PartOf a.pages (b.npages * sizeofPageInfo) (pa / PGSIZE)
      ∨ PartOf a.envs (NENV * sizeofEnv) (pa / PGSIZE) ∨ s.OwnPaging e (pa / PGSIZE))
    ∧ s.userWritable pg va = false

/-- The states after boot in which environments have been created. -/
inductive BootRun (b : BootInfo) (a : BootArrays) : Kernel → Prop
  | boot {s s' : Kernel} (hboot : MemInit b a s) (hinit : envInit s = .ok ((), s')) :
    BootRun b a s'
  | create {s s' : Kernel} {guest : Bool} {parentId : Word} {r : Except Word Nat}
      (hrun : BootRun b a s) (hroom : s.SomeFree) (heq : allocEnv guest parentId s = .ok (r, s')) :
    BootRun b a s'

/-! ### The windows in the directories -/

/-- The kernel's part of every directory is that of the kernel, but for the entry of `UVPT`. -/
structure SharedDirs (s : Kernel) : Prop where
  kern : ∀ (e : Fin NENV) pg, s.pgdir e = some pg → ∀ d, NUPDE ≤ d → d < 1024 → d ≠ UVPTX →
    s.pde e d = s.entry s.kernPgdir d
  uvpt : ∀ (e : Fin NENV) pg, s.pgdir e = some pg →
    s.pde e UVPTX = page2pa pg ||| PTE_U ||| PTE_P

/-- The kernel is well formed and its windows are those `mem_init` made. -/
structure Windowed (b : BootInfo) (a : BootArrays) (s : Kernel) : Prop where
  wf : Wf (bootPages b) ∅ (fun _ => 0) s
  shared : SharedDirs s
  layout : a = b.layout
  extmem : FreeListChecked b a
  pde : ∀ d, NUPDE ≤ d → d < 1024 → d ≠ UVPTX → refOf (s.entry s.kernPgdir d) ≠ none →
    ∃ p < 2 ^ 20, s.entry s.kernPgdir d = tableEntry p
  pte : ∀ d, NUPDE ≤ d → d < 1024 → d ≠ UVPTX → ∀ t < 1024, s.kernPte d t = bootMap b a d t

/-- Creating an environment keeps the page tables of the kernel. -/
theorem Created.kernPte {e p : Nat} {type : EnvType} {parentId : Word}
    (hc : Created e p type parentId s s') {d t : Nat} (hge : NUPDE ≤ d) (hd : d < 1024)
    (hne : d ≠ UVPTX) (ht : t < 1024) :
  s'.entry s'.kernPgdir d = s.entry s.kernPgdir d ∧ s'.kernPte d t = s.kernPte d t
  := by
  have hsame := hc.sameTables
  have hk : s'.kernPgdir = s.kernPgdir := hsame.kernPgdir
  have hentry : s'.entry s'.kernPgdir d = s.entry s.kernPgdir d := by
    rw [hk]
    exact hsame.entry _ (Or.inl rfl) d hd
  refine ⟨hentry, ?_⟩
  rw [Kernel.kernPte, Kernel.kernPte, hentry]
  cases hpt : refOf (s.entry s.kernPgdir d) with
  | none => rfl
  | some pt =>
      have hx : s.slotRef (.kern ⟨d, hd⟩) = some pt := by
        rw [Kernel.slotRef, if_pos ⟨hge, hne⟩]
        exact hpt
      exact hsame.entry pt (Or.inr ⟨.kern ⟨d, hd⟩, trivial, hx⟩) t ht

/-- A new environment gets the kernel's part of the directory. -/
theorem SharedDirs.created {e : Fin NENV} {p : Nat} {type : EnvType} {parentId : Word}
    (h : SharedDirs s) (hc : Created e p type parentId s s') :
  SharedDirs s'
  := by
  have hk : s'.kernPgdir = s.kernPgdir := hc.sameTables.kernPgdir
  have hkern : ∀ d < 1024, s'.entry s'.kernPgdir d = s.entry s.kernPgdir d := by
    intro d hd
    rw [hk]
    exact hc.sameTables.entry _ (Or.inl rfl) d hd
  have hself : ∀ d, s'.pde e d = s'.entry p d := by
    intro d
    rw [Kernel.pde, hc.pgdir_self]
  constructor
  case kern =>
    intro e' pg hpg d hge hd hne
    rw [hkern d hd]
    by_cases he : e' = e
    · rw [he, hself, hc.fresh.kern d hge hd hne]
    · have he' : e'.val ≠ e := fun h => he (Fin.ext h)
      rw [hc.pgdir_of_ne he'] at hpg
      rw [hc.pde_of_ne he' hd]
      exact h.kern e' pg hpg d hge hd hne
  case uvpt =>
    intro e' pg hpg
    by_cases he : e' = e
    · rw [he, hc.pgdir_self] at hpg
      obtain rfl := Option.some.inj hpg
      rw [he, hself, hc.fresh.uvpt, BitVec.or_assoc, BitVec.or_comm PTE_P, ← BitVec.or_assoc]
    · have he' : e'.val ≠ e := fun h => he (Fin.ext h)
      rw [hc.pgdir_of_ne he'] at hpg
      rw [hc.pde_of_ne he' (by decide)]
      exact h.uvpt e' pg hpg

/-- In every state of a run the windows are those `mem_init` made. -/
theorem BootRun.windowed (h : BootRun b a s) :
  Windowed b a s
  := by
  induction h with
  | @boot s s' hboot hinit =>
      obtain ⟨ha, hmem, -, hpde, hpte⟩ := hboot.booted
      obtain ⟨s₁, heq, ⟨envs, hs₁⟩, hfree⟩ := envInit_ok s
      obtain rfl := (Prog.ok_inj heq hinit).2
      have hentry : ∀ p i, s₁.entry p i = s.entry p i := by
        intro p i
        rw [hs₁]
        rfl
      have hk : s₁.kernPgdir = s.kernPgdir := by rw [hs₁]
      have hnone : ∀ (e : Fin NENV) pg, s₁.pgdir e ≠ some pg := by
        intro e pg hpg
        rw [Kernel.pgdir, if_pos (hfree e e.isLt).1] at hpg
        cases hpg
      constructor
      case wf => exact (hmem.wf hinit).1
      case shared =>
        constructor
        case kern =>
          intro e pg hpg
          exact (hnone e pg hpg).elim
        case uvpt =>
          intro e pg hpg
          exact (hnone e pg hpg).elim
      case layout => exact ha
      case extmem => exact hboot.checked
      case pde =>
        intro d _ hd hne
        rw [hk, hentry]
        exact hpde d hd hne
      case pte =>
        intro d _ hd hne t ht
        rw [← hpte d hd hne t ht, Kernel.kernPte, Kernel.kernPte, hk, hentry]
        cases refOf (s.entry s.kernPgdir d) with
        | none => rfl
        | some pt => exact hentry pt t
  | @create s s' guest parentId r hrun hroom heq ih =>
      obtain ⟨l, hl⟩ := ih.wf.mem
      obtain ⟨fl, hfl⟩ := ih.wf.env
      obtain ⟨type, htype⟩ := allocEnv_eq guest parentId
      rw [htype] at heq
      obtain ⟨-, heq₁⟩ | ⟨e, p, l', fl', s₁, -, -, heq₁, hc, hmem, henv⟩ :=
        envAllocType_ok hl hfl (Ledger.head_ne_of_free hfl hroom) type parentId
      · obtain rfl := (Prog.ok_inj heq₁ heq).2
        exact ih
      · obtain rfl := (Prog.ok_inj heq₁ heq).2
        constructor
        case wf =>
          constructor
          case mem => exact ⟨l', hmem⟩
          case env => exact ⟨fl', henv⟩
          case dirs => exact ih.wf.dirs.created hc hmem
        case shared => exact ih.shared.created hc
        case layout => exact ih.layout
        case extmem => exact ih.extmem
        case pde =>
          intro d hge hd hne
          rw [(hc.kernPte (t := 0) hge hd hne (by decide)).1]
          exact ih.pde d hge hd hne
        case pte =>
          intro d hge hd hne t ht
          rw [(hc.kernPte hge hd hne ht).2]
          exact ih.pte d hge hd hne t ht

/-! ### What lies in the window of `envs` -/

/-- What the `t`-th page of the window of `envs` is. -/
theorem bootMap_envs (b : BootInfo) (a : BootArrays) {t : Nat} (ht : t < 1024) :
  bootMap b a 955 t
    = BitVec.ofNat 32 (ROUNDUP (PADDR a.envs) + t * PGSIZE) ||| (PTE_U ||| PTE_P) ||| PTE_P
  := by
  have hidx : 955 * 1024 + t - 0xEEC00 = t := by omega
  simp only [bootMap]
  rw [mapRegion, if_neg (by omega), mapRegion, if_neg (by omega), mapRegion, if_neg (by omega),
    mapRegion, if_pos (by omega), hidx]

/-- The address of a page is its number shifted. -/
theorem ofNat_page (p : Nat) :
  BitVec.ofNat 32 (p * PGSIZE) = page2pa p
  := by
  apply BitVec.eq_of_toNat_eq
  rw [page2pa, BitVec.toNat_shiftLeft, BitVec.toNat_ofNat, BitVec.toNat_ofNat, PGSHIFT,
    Nat.shiftLeft_eq, PGSIZE]
  omega

/-- The array `envs` starts on a page boundary. -/
theorem layout_envs (b : BootInfo) :
  ∃ p, PADDR b.layout.envs = p * PGSIZE ∧ PADDR b.layout.nextfree = (p + 31) * PGSIZE
    ∧ 256 < p ∧ PADDR b.layout.pages + b.npages * sizeofPageInfo ≤ p * PGSIZE
  := by
  have hge := b.kernEnd_ge
  have hround := le_ROUNDUP b.kernEnd
  have hsize := le_ROUNDUP (b.npages * sizeofPageInfo)
  obtain ⟨k, hk⟩ := ROUNDUP_dvd b.kernEnd
  obtain ⟨m, hm⟩ := ROUNDUP_dvd (b.npages * sizeofPageInfo)
  have henv : ROUNDUP (NENV * sizeofEnv) = 31 * PGSIZE := by decide
  refine ⟨k + 1 + m - KERNBASE / PGSIZE, ?_⟩
  simp only [BootInfo.layout, henv, PADDR]
  rw [hk] at hround ⊢
  rw [hm] at hsize ⊢
  simp only [KERNBASE, EXTPHYSMEM, PGSIZE] at hge hround hsize ⊢
  omega

/-- The linear address of the `t`-th page of the window of `envs`. -/
def windowVa (t : Nat) : Word :=
  BitVec.ofNat 32 ((0xEEC00 + t) * PGSIZE)

theorem windowVa_parts {t : Nat} (ht : t < 1024) :
  PDX (windowVa t) = 955 ∧ PTX (windowVa t) = t ∧ PGOFF (windowVa t) = 0
    ∧ UTOP ≤ (windowVa t).toNat
  := by
  obtain ⟨hd, hp⟩ := PDX_ofNat (v := 0xEEC00 + t) (by omega)
  have hval : (windowVa t).toNat = (0xEEC00 + t) * 4096 := by
    rw [windowVa, BitVec.toNat_ofNat, PGSIZE, Nat.mod_eq_of_lt]
    omega
  refine ⟨?_, ?_, ?_, ?_⟩
  · rw [windowVa, hd]
    omega
  · rw [windowVa, hp]
    omega
  · rw [PGOFF_eq, hval]
    omega
  · rw [hval, show UTOP = 0xEEC00 * 4096 by decide]
    omega

/-- An environment can read every page of the window of `envs`, whatever it holds. -/
theorem Windowed.readable (h : Windowed b a s) {e : Fin NENV} {pg : Nat}
    (hpg : s.pgdir e = some pg) {p t : Nat} (hp : ROUNDUP (PADDR a.envs) + t * PGSIZE = p * PGSIZE)
    (ht : t < 1024) (hlt : p < 2 ^ 20) :
  s.userReadable pg (windowVa t) = true ∧ s.translate pg (windowVa t) = some (p * PGSIZE)
  := by
  obtain ⟨hd, htx, hoff, -⟩ := windowVa_parts ht
  have hge : NUPDE ≤ 955 := by decide
  have hne : (955 : Nat) ≠ UVPTX := by decide
  have hpte := h.pte 955 hge (by decide) hne t ht
  rw [bootMap_envs b a ht, hp, ofNat_page] at hpte
  have href : refOf (page2pa p ||| (PTE_U ||| PTE_P) ||| PTE_P) = some p :=
    refOf_mk hlt (by decide)
  cases hpt : refOf (s.entry s.kernPgdir 955) with
  | none =>
      rw [Kernel.kernPte, hpt] at hpte
      simp only at hpte
      rw [← hpte, refOf_zero] at href
      cases href
  | some pt =>
      obtain ⟨q, hq, hqe⟩ := h.pde 955 hge (by decide) hne (by rw [hpt]; simp)
      rw [Kernel.kernPte, hpt] at hpte
      simp only at hpte
      have hpde := h.shared.kern e pg hpg 955 hge (by decide) hne
      rw [Kernel.pde, hpg] at hpde
      simp only at hpde
      have hpresent : present (s.entry pg 955) = true ∧ ptePage (s.entry pg 955) = pt := by
        rw [hpde]
        obtain ⟨h1, h2⟩ := refOf_eq_some.mp hpt
        exact ⟨by simpa [present] using h1, h2⟩
      have hpresent' : present (s.entry pt t) = true ∧ ptePage (s.entry pt t) = p := by
        rw [hpte]
        obtain ⟨h1, h2⟩ := refOf_eq_some.mp href
        exact ⟨by simpa [present] using h1, h2⟩
      have hentries : s.entries pg (windowVa t) = some (s.entry pg 955, s.entry pt t) := by
        rw [Kernel.entries, hd, htx]
        simp only [hpresent.1, hpresent.2, hpresent'.1, if_true]
      constructor
      · have hU : ∀ w : Word, (w ||| PTE_U) &&& PTE_U = PTE_U := by
          intro w
          apply BitVec.eq_of_getLsbD_eq
          intro i _
          simp only [BitVec.getLsbD_and, BitVec.getLsbD_or]
          cases PTE_U.getLsbD i with
          | false => simp
          | true => simp
        have h1 : s.entry pg 955 &&& PTE_U = PTE_U := by
          rw [hpde, hqe, tableEntry]
          exact hU _
        have h2 : s.entry pt t &&& PTE_U = PTE_U := by
          rw [hpte, BitVec.or_comm PTE_U, ← BitVec.or_assoc, BitVec.or_assoc _ PTE_U,
            BitVec.or_comm PTE_U, ← BitVec.or_assoc]
          exact hU _
        rw [Kernel.userReadable, Kernel.allows, hentries]
        simp only [h1, h2]
        decide
      · rw [Kernel.translate, hentries, hoff]
        simp only [hpresent'.2, Nat.add_zero]

/-- The page behind the array `envs` is left out of the page allocator, and the one the
allocator's pages in extended memory start with is in the window as well. -/
theorem Windowed.behind (h : Windowed b a s) :
  ∃ p, ROUNDUP (PADDR a.envs) = p * PGSIZE ∧ p + 31 ∉ bootPages b ∧ p + 287 ∈ bootPages b
    ∧ p + 287 < 2 ^ 20 ∧ ¬ PartOf a.pages (b.npages * sizeofPageInfo) (p + 31)
    ∧ ¬ PartOf a.envs (NENV * sizeofEnv) (p + 31)
  := by
  obtain ⟨p, hp, hnext, h256, hpages⟩ := layout_envs b
  have hbase := h.extmem.basemem
  have hext := h.extmem.extmem
  have hle := b.npages_le
  have h160 : IOPHYSMEM / PGSIZE = 160 := by decide
  have h7 : MPENTRY_PADDR / PGSIZE = 7 := by decide
  have hsize : NENV * sizeofEnv = 31 * PGSIZE := by decide
  have hfirst : firstExtPage b.layout.nextfree = p + 287 := by
    rw [firstExtPage_eq, hnext, Nat.mul_div_cancel _ (by decide)]
    omega
  rw [h.layout] at hext ⊢
  rw [hfirst] at hext
  refine ⟨p, ?_, ?_, ?_, by omega, ?_, ?_⟩
  · rw [hp, ROUNDUP_of_dvd (Nat.dvd_mul_left _ _)]
  · rw [bootPages, Finset.mem_filter, hfirst]
    rintro ⟨-, -, ⟨-, hlt⟩ | hge⟩
    · omega
    · omega
  · rw [bootPages, Finset.mem_filter, Finset.mem_range, hfirst]
    exact ⟨hext, by omega, Or.inr (Nat.le_refl _)⟩
  · rintro ⟨-, hlt⟩
    simp only [PGSIZE] at hlt hpages
    omega
  · rintro ⟨-, hlt⟩
    rw [hp, hsize, ← Nat.add_mul] at hlt
    omega

/-- The pages of the paging structures of an environment come from the page allocator. -/
theorem Windowed.ownPaging (h : Windowed b a s) {e : Fin NENV} {pg : Nat}
    (hpg : s.pgdir e = some pg) {p : Nat} (hown : s.OwnPaging e p) :
  p ∈ bootPages b
  := by
  obtain ⟨l, hl⟩ := h.wf.mem
  have hle := hl.npages_le
  obtain hdir | ⟨d, hd, hpde⟩ := hown
  · exact Kernel.mem_avail hl (x := .dir e) hdir
  · by_cases hlow : d < NUPDE
    · exact Kernel.mem_avail hl (x := .table e ⟨d, hlow⟩) hpde
    · by_cases hu : d = UVPTX
      · have hlt : pg < s.npages := Kernel.lt_npages hl (x := .dir e) hpg
        rw [hu, h.shared.uvpt e pg hpg, refOf_mk (by omega) (by decide)] at hpde
        obtain rfl := Option.some.inj hpde
        exact Kernel.mem_avail hl (x := .dir e) hpg
      · rw [h.shared.kern e pg hpg d (by omega) hd hu] at hpde
        have hx : s.slotRef (.kern ⟨d, hd⟩) = some p := by
          rw [Kernel.slotRef, if_pos ⟨Nat.le_of_not_lt hlow, hu⟩]
          exact hpde
        exact Kernel.mem_avail hl hx

/-- The page behind the arrays can be read, and so can a page of the page allocator. -/
theorem Windowed.readable_behind (h : Windowed b a s) {e : Nat} (hlive : s.Live e) :
  ¬ Confined b a s e ∧ ∃ pg va p, s.pgdir e = some pg ∧ UTOP ≤ va.toNat ∧ p ∈ bootPages b
    ∧ s.userReadable pg va = true ∧ s.translate pg va = some (p * PGSIZE)
  := by
  obtain ⟨fl, hfl⟩ := h.wf.env
  obtain ⟨pg, -, hpg⟩ := hlive.pgdir hfl
  have hpos : 0 < PGSIZE := by decide
  obtain ⟨p, hp, hgap, havail, hlt, hpages, henvs⟩ := h.behind
  have hread : ∀ t < 1024, p + t < 2 ^ 20 → s.userReadable pg (windowVa t) = true
      ∧ s.translate pg (windowVa t) = some ((p + t) * PGSIZE) := by
    intro t ht hpt
    exact h.readable (e := ⟨e, hlive.1⟩) hpg (by rw [hp, Nat.add_mul]) ht hpt
  constructor
  · intro hc
    obtain ⟨hr, htr⟩ := hread 31 (by decide) (by omega)
    obtain ⟨hpart, -⟩ := hc pg (windowVa 31) _ hpg (windowVa_parts (by decide)).2.2.2 hr htr
    rw [Nat.mul_div_cancel _ hpos] at hpart
    obtain hpart | hpart | hown := hpart
    · exact hpages hpart
    · exact henvs hpart
    · exact hgap (h.ownPaging (e := ⟨e, hlive.1⟩) hpg hown)
  · obtain ⟨hr, htr⟩ := hread 287 (by decide) hlt
    exact ⟨pg, windowVa 287, p + 287, hpg, (windowVa_parts (by decide)).2.2.2, havail, hr, htr⟩

/-- In no environment, on no machine, is what lies above `UTOP` confined to the arrays and
page tables. -/
theorem BootRun.exposed (h : BootRun b a s) {e : Nat} (hlive : s.Live e) :
  ¬ Confined b a s e ∧ ∃ pg va p, s.pgdir e = some pg ∧ UTOP ≤ va.toNat ∧ p ∈ bootPages b
    ∧ s.userReadable pg va = true ∧ s.translate pg va = some (p * PGSIZE)
  := h.windowed.readable_behind hlive

/-! ### A machine with 16 megabytes -/

/-- What the kernel finds on a machine with 16 megabytes. -/
def smallMachine : BootInfo where
  npages := 4096
  npagesBasemem := 160
  kernEnd := 0xF0150000
  bootstack := 0xF0110000
  percpuKstacks := 0xF0118000
  npages_le := by decide
  kernEnd_ge := by decide
  kernEnd_le := by decide

/-- The machine boots and its first environment can be created. -/
theorem smallMachine_boots :
  ∃ s, BootRun smallMachine smallMachine.layout s ∧ s.Live 0
  := by
  have hc : FreeListChecked smallMachine smallMachine.layout := by
    constructor
    case basemem => decide
    case extmem => decide
  obtain ⟨s, hs, hlist⟩ := memInit_returns smallMachine hc (by decide) (by decide)
  obtain ⟨s₁, hinit, ⟨envs, hs₁⟩, hfree⟩ := envInit_ok s
  have hrun := BootRun.boot hs hinit
  have hw := hrun.windowed
  obtain ⟨l, hl⟩ := hw.wf.mem
  have hfl : EnvInv (List.range NENV) s₁ := by
    apply envInv_of_init hfree
    rw [hs₁]
  have hroom : s₁.SomeFree := ⟨0, by decide, (hfree 0 (by decide)).1⟩
  obtain ⟨rfl, -⟩ | ⟨e, p, l', fl', s₂, he, -, heq, hcr, -, -⟩ :=
    envAllocType_ok hl hfl (Ledger.head_ne_of_free hfl hroom) .ENV_TYPE_USER 0
  · have hnone := hl.pageFreeList_eq_none.mpr rfl
    rw [hs₁] at hnone
    exact (hlist hnone).elim
  · have he0 : e.val = 0 := by
      rw [he] at hfl
      have hhead := hfl.chain.1
      rw [hs₁] at hhead
      exact (Option.some.inj hhead).symm
    have halloc : allocEnv false 0 s₁ = .ok (.ok e.val, s₂) := heq
    use s₂, hrun.create hroom halloc
    rw [← he0]
    use e.isLt
    rw [hcr.envs, Function.update_self]
    simp [newEnv]

theorem BootRun.exposed_smallMachine :
  ∃ s, BootRun smallMachine smallMachine.layout s ∧ s.Live 0
    ∧ ¬ Confined smallMachine smallMachine.layout s 0
  := by
  obtain ⟨s, hrun, hlive⟩ := smallMachine_boots
  exact ⟨s, hrun, hlive, (hrun.exposed hlive).1⟩

/-- What environments can read is not confined to the arrays and their page tables. -/
theorem not_confined :
  ¬ ∀ b a s e, BootRun b a s → s.Live e → Confined b a s e
  := by
  intro hall
  obtain ⟨s, hrun, hlive⟩ := smallMachine_boots
  exact (hrun.windowed.readable_behind hlive).1 (hall _ _ s 0 hrun hlive)

end Jos
