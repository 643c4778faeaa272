import Jos.Kern.Wf
import Mathlib.Order.Interval.Finset.Nat

/-!
# The kernel after boot

What `mem_init` and `env_init` leave behind: a list of free pages without references,
page tables of the kernel with one reference each, and free environments linked in
order.  Such a kernel is well formed.
-/

namespace Jos

open Bytes

variable {avail held : Finset Nat} {own : Nat → Nat} {l fl : List Nat} {s s' s'' : Kernel}

/-- What `mem_init` leaves behind when `page_init` handed the pages `avail` to the
allocator: each of them is free, or a page table of the kernel. -/
structure AfterMemInit (avail : Finset Nat) (s : Kernel) : Prop where
  npages_le : s.npages ≤ 2 ^ 20
  avail_lt : ∀ p ∈ avail, p < s.npages
  kern_notMem : s.kernPgdir ∉ avail
  kern_lt : s.kernPgdir < s.npages
  uvpt : s.entry s.kernPgdir UVPTX = page2pa s.kernPgdir ||| PTE_U ||| PTE_P
  tables : ∀ d p, s.slotRef (.kern d) = some p → p ∈ avail
  tables_inj : ∀ d d' p, s.slotRef (.kern d) = some p → s.slotRef (.kern d') = some p → d' = d
  free : ∃ l, Chain (fun p => (s.pages p).ppLink) s.pageFreeList l ∧ l.Nodup
    ∧ (∀ p, p ∈ l ↔ p ∈ avail ∧ (s.pages p).ppRef = 0)
    ∧ ∀ p ∈ avail, p ∉ l → (s.pages p).ppLink = none
  ref : ∀ p ∈ avail, ((s.pages p).ppRef = 0 ∧ ∀ d, s.slotRef (.kern d) ≠ some p) ∨
    ((s.pages p).ppRef = 1 ∧ ∃ d, s.slotRef (.kern d) = some p)
  curenv : s.curenv = none

/-! ### Pages nobody has in hand -/

/-- When the running code has no pages in hand, the free pages are those without
references. -/
theorem MemInv.mem_iff (h : MemInv avail ∅ (fun _ => 0) l s) (p : Nat) :
  p ∈ l ↔ p ∈ avail ∧ s.refs p = 0
  := by
  have hm := h.balanced.mem_free p
  simp only [Kernel.store, Store.total, Finset.notMem_empty, not_false_eq_true, true_and,
    Nat.add_zero] at hm
  exact hm

/-- When the running code has no pages in hand, the counters count the references. -/
theorem MemInv.ppRef_eq (h : MemInv avail ∅ (fun _ => 0) l s) {p : Nat} (hp : p ∈ avail) :
  (s.pages p).ppRef = s.refs p % 65536
  := by
  have hc := h.balanced.counted p hp
  simp only [Kernel.store, Store.total, Nat.add_zero] at hc
  exact hc

/-! ### Linking the environments -/

/-- The state after the first `n` environments are marked as free. -/
structure EnvsFree (n : Nat) (s s' : Kernel) : Prop where
  quiet : ∃ envs, s' = { s with envs := envs }
  free : ∀ e < n, (s'.envs e).envStatus = .ENV_FREE ∧ (s'.envs e).envLink = some (e + 1)
    ∧ (s'.envs e).envId = 0

/-- `env_init` links the environments in order, and the last one to what follows. -/
theorem envInit_ok (s : Kernel) :
  ∃ s', envInit s = .ok ((), s') ∧ (∃ envs, s' = { s with envs := envs, envFreeList := some 0 })
    ∧ ∀ e < NENV, (s'.envs e).envStatus = .ENV_FREE ∧ (s'.envs e).envLink = some (e + 1)
      ∧ (s'.envs e).envId = 0
  := by
  have hloop : (Prog.forUp 0 NENV (fun i => modify (fun s : Kernel =>
      s.setEnv i (initEnv i (s.envs i))))).Ends s (fun _ s' => EnvsFree NENV s s')
      (fun _ => False) := by
    apply Prog.ends_forUp_zero (fun n s' => EnvsFree n s s')
    · intro i s' hi ⟨⟨envs, hs'⟩, hfree⟩
      rw [Prog.ends_modify]
      constructor
      · use Function.update envs i (initEnv i (envs i))
        rw [hs']
        rfl
      · intro e he
        simp only [Kernel.setEnv]
        by_cases hei : e = i
        · rw [hei, Function.update_self, initEnv]
          use rfl
          rw [if_pos (by omega)]
          use rfl
        · rw [Function.update_of_ne hei]
          apply hfree e
          omega
    · constructor
      · use s.envs
      · intro e he
        omega
  obtain ⟨_, s1, heq, ⟨envs, hs1⟩, hfree⟩ := hloop.returns
  use { s1 with envFreeList := some 0 }
  constructor
  · rw [envInit, Prog.bind_of_eq heq]
    rfl
  · constructor
    · use envs
      rw [hs1]
    · apply hfree

/-- The links of consecutive numbers. -/
theorem chain_range' {next : Nat → Option Nat} {n k : Nat}
    (h : ∀ e, k ≤ e → e < k + n → next e = some (e + 1)) (hend : next (k + n) = none) :
  Chain next (some k) (List.range' k n ++ [k + n])
  := by
  induction n generalizing k with
  | zero =>
      constructor
      · rfl
      · apply hend
  | succ n ih =>
      rw [List.range'_succ]
      constructor
      · rfl
      · rw [h k (by omega) (by omega), show k + (n + 1) = k + 1 + n by omega]
        apply ih
        · intro e he he'
          apply h e (by omega) (by omega)
        · rw [show k + 1 + n = k + (n + 1) by omega]
          apply hend

/-- The environments are in order after `env_init`. -/
theorem envInv_of_init
    (h : ∀ e < NENV, (s.envs e).envStatus = .ENV_FREE ∧ (s.envs e).envLink = some (e + 1)
      ∧ (s.envs e).envId = 0)
    (hlist : s.envFreeList = some 0) :
  EnvInv (List.range NENV) s
  := by
  constructor
  case chain =>
    rw [hlist, List.range_eq_range']
    rw [show [NENV] = [0 + NENV] by rw [Nat.zero_add]]
    apply chain_range'
    · intro e _ he
      rw [Nat.zero_add] at he
      simp only [he, if_true]
      apply (h e he).2.1
    · rw [Nat.zero_add, if_neg (Nat.lt_irrefl NENV)]
  case nodup => apply List.nodup_range
  case mem_free =>
    intro e
    rw [List.mem_range]
    constructor
    · intro he
      use he, (h e he).1
    · intro he
      apply he.1
  case pgdir =>
    intro e he
    apply (he.2 (h e he.1).1).elim

/-! ### The kernel is well formed -/

/-- After boot no environment refers to a page. -/
theorem slotRef_of_free (hfree : ∀ e < NENV, (s.envs e).envStatus = .ENV_FREE) {x : Slot}
    (hx : ∀ d, x ≠ .kern d) :
  s.slotRef x = none
  := by
  have hpg : ∀ e : Fin NENV, s.pgdir e = none := by
    intro e
    rw [Kernel.pgdir, if_pos (hfree e e.isLt)]
  have hpde : ∀ (e : Fin NENV) d, s.pde e d = 0 := by
    intro e d
    rw [Kernel.pde, hpg]
  cases x with
  | dir e => apply hpg
  | table e d => rw [Kernel.slotRef, hpde, refOf_zero]
  | page e d t =>
      rw [Kernel.slotRef, Kernel.pte, hpde]
      simp only [refOf_zero]
  | kern d => apply (hx d rfl).elim

/-- The kernel is well formed after `env_init`. -/
theorem AfterMemInit.wf (h : AfterMemInit avail s) (heq : envInit s = .ok ((), s')) :
  Wf avail ∅ (fun _ => 0) s' ∧ s'.curenv = none
  := by
  obtain ⟨s1, heq1, ⟨envs, hs1⟩, hfree⟩ := envInit_ok s
  obtain rfl := (Prog.ok_inj heq1 heq).2
  have hkern : ∀ d, s1.slotRef (.kern d) = s.slotRef (.kern d) := by
    intro d
    rw [hs1]
    rfl
  have hnone : ∀ {x : Slot}, (∀ d, x ≠ .kern d) → s1.slotRef x = none :=
    slotRef_of_free (fun e he => (hfree e he).1)
  have hcase : ∀ x p, s1.slotRef x = some p → ∃ d, x = .kern d ∧ s.slotRef (.kern d) = some p := by
    intro x p hx
    cases x with
    | kern d =>
        use d, rfl
        rw [← hkern]
        apply hx
    | dir e =>
        rw [hnone (by simp)] at hx
        cases hx
    | table e d =>
        rw [hnone (by simp)] at hx
        cases hx
    | page e d t =>
        rw [hnone (by simp)] at hx
        cases hx
  have hpages : s1.pages = s.pages := by rw [hs1]
  have hlist : s1.pageFreeList = s.pageFreeList := by rw [hs1]
  have hrefs : ∀ p ∈ avail, s1.refs p = (s.pages p).ppRef := by
    intro p hp
    rw [Kernel.refs]
    obtain ⟨h0, hne⟩ | ⟨h1, d, hd⟩ := h.ref p hp
    · rw [h0, refCount.eq_zero_iff]
      intro x _ hx
      obtain ⟨d, -, hd⟩ := hcase x p hx
      apply hne d hd
    · rw [h1]
      apply refCount.eq_one (mem_slots (.kern d))
      · rw [hkern]
        apply hd
      · intro y _ hy
        obtain ⟨d', rfl, hd'⟩ := hcase y p hy
        rw [h.tables_inj d d' p hd hd']
  obtain ⟨l, hchain, hnodup, hmem, hunlinked⟩ := h.free
  constructor
  · constructor
    case mem =>
      use l
      constructor
      case chain =>
        rw [hpages, hlist]
        apply hchain
      case unlinked =>
        rw [hpages]
        apply hunlinked
      case balanced =>
        constructor
        case counted =>
          intro p hp
          have := hrefs p hp
          rw [Kernel.refs] at this
          rw [Store.total]
          simp only [Kernel.store, hpages, this, Nat.add_zero]
          rw [Nat.mod_eq_of_lt]
          obtain ⟨h0, -⟩ | ⟨h1, -⟩ := h.ref p hp
          · omega
          · omega
        case nodup => apply hnodup
        case mem_free =>
          intro p
          simp only [Kernel.store, Finset.notMem_empty, not_false_eq_true, true_and]
          rw [hmem]
          constructor
          · rintro ⟨hp, h0⟩
            use hp
            rw [Store.total]
            have := hrefs p hp
            rw [Kernel.refs] at this
            simp only [Nat.add_zero, this, h0]
          · rintro ⟨hp, h0⟩
            use hp
            rw [Store.total] at h0
            have := hrefs p hp
            rw [Kernel.refs] at this
            simp only [Nat.add_zero, this] at h0
            apply h0
        case held_avail =>
          intro p hp
          cases hp
        case held_total =>
          intro p hp
          cases hp
        case mem_slots =>
          intro x p _
          apply mem_slots
        case ref_avail =>
          intro x p hx
          obtain ⟨d, -, hd⟩ := hcase x p hx
          apply h.tables d p hd
        case own_avail =>
          intro p hp
          cases hp
        case owned =>
          intro x y p _ hx hy
          obtain ⟨d, rfl, hd⟩ := hcase x p hx
          obtain ⟨d', rfl, hd'⟩ := hcase y p hy
          rw [h.tables_inj d d' p hd hd']
      case avail_lt =>
        rw [hs1]
        apply h.avail_lt
      case npages_le =>
        rw [hs1]
        apply h.npages_le
      case kern_notMem =>
        rw [hs1]
        apply h.kern_notMem
    case env =>
      use List.range NENV
      apply envInv_of_init hfree
      rw [hs1]
    case dirs =>
      have hpg : ∀ (e : Fin NENV) pg, s1.pgdir e ≠ some pg := by
        intro e pg he
        rw [Kernel.pgdir, if_pos (hfree e e.isLt).1] at he
        cases he
      constructor
      case kern =>
        intro d hd hd' p hp
        have hp' : refOf (s.entry s.kernPgdir d) = some p := by
          rw [hs1] at hp
          apply hp
        have hn : s1.npages = s.npages := by rw [hs1]
        rw [hn]
        by_cases hu : d = UVPTX
        · rw [hu, h.uvpt] at hp'
          have hk := h.kern_lt
          have hn' := h.npages_le
          rw [refOf_mk (by omega) (by decide)] at hp'
          obtain rfl := Option.some.inj hp'
          apply hk
        · apply h.avail_lt
          apply h.tables ⟨d, hd'⟩
          rw [Kernel.slotRef, if_pos ⟨hd, hu⟩]
          apply hp'
      case upper =>
        intro e pg he
        apply (hpg e pg he).elim
  · rw [hs1]
    apply h.curenv

/-! ### A kernel after boot -/

/-- The memory whose pages hold the words `w`. -/
def memOfWords (w : Nat → Nat → Word) : Memory :=
  fun a => byteOf (w (a / PGSIZE) (a % PGSIZE / 4)) (a % 4)

theorem entry_memOfWords (w : Nat → Nat → Word) {p i : Nat} (hi : i < 1024)
    (h : s.mem = memOfWords w) :
  s.entry p i = w p i
  := by
  apply read32_of_bytes
  intro j hj
  obtain ⟨r, hr⟩ : ∃ r, r = 4 * i + j := ⟨_, rfl⟩
  simp only [h, memOfWords, PGSIZE]
  have hr4 : r < 4096 := by omega
  have hdiv : r / 4 = i := by omega
  have hmod : r % 4 = j := by omega
  have hmod4 : (p * 4096 + r) % 4 = r % 4 := by
    rw [show p * 4096 = 4 * (p * 1024) by omega, Nat.mul_add_mod]
  rw [Nat.add_assoc, ← hr, Nat.mul_comm p, Nat.mul_add_div (by decide), Nat.mul_add_mod,
    Nat.mul_comm 4096 p, hmod4, Nat.div_eq_of_lt hr4, Nat.mod_eq_of_lt hr4, hdiv, hmod,
    Nat.add_zero]

/-- The words of the paging structures of the kernel: the directory is the page `4`, its
`d`-th entry refers to the page `d - 953`, and the page tables from `7` on map all of
physical memory at `KERNBASE`. -/
def bootWord (p i : Nat) : Word :=
  if p = 4 then
    if i < NUPDE then 0
    else if i = UVPTX then page2pa 4 ||| PTE_U ||| PTE_P
    else tableEntry (i - 953)
  else if 7 ≤ p ∧ p < 71 then
    page2pa ((p - 7) * 1024 + i) ||| PTE_P ||| PTE_W
  else
    0

/-- A kernel with `n` free pages after `mem_init`. -/
def bootKernel (n : Nat) : Kernel where
  mem := memOfWords bootWord
  npages := 71 + n
  pages p :=
    if p < 71 then { ppRef := 1 }
    else { ppLink := if p + 1 < 71 + n then some (p + 1) else none }
  pageFreeList := if n = 0 then none else some 71
  kernPgdir := 4

/-- The pages the allocator of `bootKernel n` keeps. -/
def bootAvail (n : Nat) : Finset Nat :=
  (Finset.Ico 2 (71 + n)).erase 4

theorem mem_bootAvail {n p : Nat} :
  p ∈ bootAvail n ↔ 2 ≤ p ∧ p < 71 + n ∧ p ≠ 4
  := by
  rw [bootAvail, Finset.mem_erase, Finset.mem_Ico]
  tauto

theorem bootKernel_kern (n : Nat) (d : Fin NPDENTRIES) :
  (bootKernel n).slotRef (.kern d)
    = if NUPDE ≤ d.val ∧ d.val ≠ UVPTX then some (d.val - 953) else none
  := by
  have hd := d.isLt
  simp only [NPDENTRIES] at hd
  rw [Kernel.slotRef]
  by_cases h : NUPDE ≤ d.val ∧ d.val ≠ UVPTX
  · rw [if_pos h, if_pos h, entry_memOfWords bootWord hd rfl, bootWord,
      if_pos (show (bootKernel n).kernPgdir = 4 from rfl), if_neg (by omega), if_neg h.2]
    apply refOf_tableEntry
    omega
  · rw [if_neg h, if_neg h]

/-- The list of free pages of `bootKernel n`. -/
theorem bootKernel_chain (n : Nat) :
  Chain (fun p => ((bootKernel n).pages p).ppLink) (bootKernel n).pageFreeList (List.range' 71 n)
  := by
  have hlinks : ∀ k m, 71 ≤ k → k + m = 71 + n →
      Chain (fun p => ((bootKernel n).pages p).ppLink) (if m = 0 then none else some k)
        (List.range' k m) := by
    intro k m
    induction m generalizing k with
    | zero =>
        intro _ _
        rfl
    | succ m ih =>
        intro hk hkm
        rw [if_neg (by omega), List.range'_succ]
        constructor
        · rfl
        · have hnext : ((bootKernel n).pages k).ppLink = if m = 0 then none else some (k + 1) := by
            simp only [bootKernel]
            rw [if_neg (by omega)]
            by_cases hm : m = 0
            · rw [if_pos hm]
              simp only
              rw [if_neg (by omega)]
            · rw [if_neg hm]
              simp only
              rw [if_pos (by omega)]
          change Chain _ ((bootKernel n).pages k).ppLink _
          rw [hnext]
          apply ih
          · omega
          · omega
  apply hlinks 71 n
  · omega
  · rfl

/-- `bootKernel n` is what `mem_init` leaves behind. -/
theorem bootKernel_afterMemInit {n : Nat} (hn : 71 + n ≤ 2 ^ 20) :
  AfterMemInit (bootAvail n) (bootKernel n)
  := by
  have hkern : ∀ d p, (bootKernel n).slotRef (.kern d) = some p →
      NUPDE ≤ d.val ∧ d.val ≠ UVPTX ∧ p = d.val - 953 := by
    intro d p hd
    rw [bootKernel_kern] at hd
    split at hd
    case isTrue h =>
      use h.1, h.2
      apply (Option.some.inj hd).symm
    case isFalse => cases hd
  constructor
  case npages_le => apply hn
  case avail_lt =>
    intro p hp
    apply (mem_bootAvail.mp hp).2.1
  case kern_notMem =>
    intro h
    apply (mem_bootAvail.mp h).2.2 rfl
  case kern_lt =>
    simp only [bootKernel]
    omega
  case uvpt =>
    have hlt : UVPTX < 1024 := by decide
    have hne : ¬ UVPTX < NUPDE := by decide
    rw [entry_memOfWords bootWord hlt rfl, bootWord,
      if_pos (show (bootKernel n).kernPgdir = 4 from rfl), if_neg hne, if_pos rfl]
    rfl
  case tables =>
    intro d p hd
    obtain ⟨h1, h2, hp⟩ := hkern d p hd
    have hlt := d.isLt
    simp only [NUPDE, NPDENTRIES, UVPTX] at h1 h2 hlt
    rw [mem_bootAvail]
    omega
  case tables_inj =>
    intro d d' p hd hd'
    obtain ⟨h1, -, h2⟩ := hkern d p hd
    obtain ⟨h1', -, h2'⟩ := hkern d' p hd'
    simp only [NUPDE] at h1 h1'
    apply Fin.ext
    omega
  case free =>
    use List.range' 71 n, bootKernel_chain n, List.nodup_range'
    constructor
    · intro p
      rw [List.mem_range'_1, mem_bootAvail]
      simp only [bootKernel]
      split
      case isTrue h => simp; omega
      case isFalse h => simp; omega
    · intro p hp hpl
      rw [mem_bootAvail] at hp
      rw [List.mem_range'_1] at hpl
      simp only [bootKernel]
      rw [if_pos (by omega)]
  case ref =>
    intro p hp
    rw [mem_bootAvail] at hp
    by_cases hlt : p < 71
    · right
      constructor
      · simp only [bootKernel, if_pos hlt]
      · have hlt' : p + 953 < NPDENTRIES := by
          simp only [NPDENTRIES]
          omega
        use ⟨p + 953, hlt'⟩
        rw [bootKernel_kern, if_pos]
        · simp
        · simp only [NUPDE, UVPTX]
          omega
    · left
      constructor
      · simp only [bootKernel, if_neg hlt]
      · intro d hd
        obtain ⟨-, -, h2⟩ := hkern d p hd
        have hd := d.isLt
        simp only [NPDENTRIES] at hd
        omega
  case curenv => rfl

/-! ### The first environments -/

/-- Create the first two environments. -/
def firstEnvs : Prog Kernel Unit := do
  envInit
  let _ ← envAlloc 0
  let _ ← envAlloc 0

/-- The kernel with two environments that run nothing yet. -/
structure TwoEnvs (avail : Finset Nat) (s : Kernel) : Prop where
  wf : Wf avail ∅ (fun _ => 0) s
  curenv : s.curenv = none
  live : ∀ e < 2, s.Live e ∧ (s.envs e).envId = BitVec.ofNat 32 (4096 + e)
    ∧ (s.envs e).envTf = initialTf ∧ (s.envs e).envIpcRecving = false
  ready : ∀ e < 2, (s.envs e).envType = .ENV_TYPE_USER ∧ (s.envs e).envStatus = .ENV_RUNNABLE
  others : ∀ e < NENV, 2 ≤ e → (s.envs e).envStatus = .ENV_FREE
  unmapped : ∀ a, s.ptes a = 0
  noTables : ∀ (e : Fin NENV) (d : Fin NUPDE), s.pde e d = 0

/-- Two environments can be created on a kernel with pages for their directories. -/
theorem firstEnvs_ok {n : Nat} (hn : 2 ≤ n) (hn' : 71 + n ≤ 2 ^ 20) :
  ∃ s, firstEnvs (bootKernel n) = .ok ((), s) ∧ TwoEnvs (bootAvail n) s
    ∧ ∃ l, MemInv (bootAvail n) ∅ (fun _ => 0) l s ∧ l.length + 2 = n
  := by
  obtain ⟨s0, heq0, ⟨envs, hs0⟩, hfree⟩ := envInit_ok (bootKernel n)
  obtain ⟨hwf0, hcur0⟩ := (bootKernel_afterMemInit hn').wf heq0
  obtain ⟨l0, hl0⟩ := hwf0.mem
  have hlen : l0.length = n := by
    have hchain := bootKernel_chain n
    have hlist : s0.pageFreeList = (bootKernel n).pageFreeList := by rw [hs0]
    have hpages : s0.pages = (bootKernel n).pages := by rw [hs0]
    rw [← hlist, ← hpages] at hchain
    rw [hl0.chain.unique hchain, List.length_range']
  have hfl0 : EnvInv (List.range NENV) s0 := by
    apply envInv_of_init hfree
    rw [hs0]
  have hhead0 : s0.envFreeList = some 0 := by rw [hs0]
  have hptes0 : ∀ a, s0.ptes a = 0 := by
    intro a
    have hpg : s0.pgdir a.1 = none := by rw [Kernel.pgdir, if_pos (hfree a.1 a.1.isLt).1]
    have hpde : s0.pde a.1 a.2.1 = 0 := by rw [Kernel.pde, hpg]
    rw [Kernel.ptes, Kernel.pte, hpde]
    rfl
  obtain ⟨rfl, -⟩ | ⟨e0, p0, l1, fl1, s1, he0, hl1, heq1, hc1, hmem1, henv1⟩ :=
    envAllocType_ok hl0 hfl0 (by rw [hhead0]; simp [NENV]) .ENV_TYPE_USER 0
  · simp only [List.length_nil] at hlen
    omega
  have he0' : e0.val = 0 := by
    rw [he0] at hfl0
    have := hfl0.chain.1
    rw [hhead0] at this
    exact (Option.some.inj this).symm
  have hhead1 : s1.envFreeList = some 1 := by
    rw [hc1.quiet, he0']
    exact (hfree 0 (by decide)).2.1
  obtain ⟨rfl, -⟩ | ⟨e1, p1, l2, fl2, s2, he1, hl2, heq2, hc2, hmem2, henv2⟩ :=
    envAllocType_ok hmem1 henv1 (by rw [hhead1]; simp [NENV]) .ENV_TYPE_USER 0
  · rw [hl1, List.length_cons, List.length_nil] at hlen
    omega
  have he1' : e1.val = 1 := by
    rw [he1] at henv1
    have := henv1.chain.1
    rw [hhead1] at this
    exact (Option.some.inj this).symm
  have hdirs := (hwf0.dirs.created hc1 hmem1).created hc2 hmem2
  have henvs1 := hc1.envs
  have henvs2 := hc2.envs
  rw [he0'] at henvs1
  rw [he1'] at henvs2
  use s2
  constructor
  · rw [firstEnvs, Prog.bind_of_eq heq0, envAlloc, Prog.bind_of_eq heq1, Prog.bind_of_eq heq2]
    rfl
  constructor
  · constructor
    case wf => exact ⟨⟨l2, hmem2⟩, ⟨fl2, henv2⟩, hdirs⟩
    case curenv =>
      have hcur1 : s1.curenv = s0.curenv := by rw [hc1.quiet]
      have hcur2 : s2.curenv = s1.curenv := by rw [hc2.quiet]
      rw [hcur2, hcur1, hcur0]
    case live =>
      intro e he
      have hcases : e = 0 ∨ e = 1 := by omega
      have hid0 := (hfree 0 (by decide)).2.2
      have hid1 := (hfree 1 (by decide)).2.2
      rcases hcases with rfl | rfl
      · have henv : s2.envs 0 = newEnv (s0.envs 0) 0 p0 .ENV_TYPE_USER 0 := by
          rw [henvs2, Function.update_of_ne (by decide), henvs1, Function.update_self]
        rw [Kernel.Live, henv, newEnv, hid0]
        have hid : nextEnvId 0 0 = BitVec.ofNat 32 (4096 + 0) := by decide
        exact ⟨⟨by decide, by simp⟩, hid, rfl, rfl⟩
      · have henv : s2.envs 1 = newEnv (s0.envs 1) 1 p1 .ENV_TYPE_USER 0 := by
          rw [henvs2, Function.update_self, henvs1, Function.update_of_ne (by decide)]
        rw [Kernel.Live, henv, newEnv, hid1]
        have hid : nextEnvId 1 0 = BitVec.ofNat 32 (4096 + 1) := by decide
        exact ⟨⟨by decide, by simp⟩, hid, rfl, rfl⟩
    case ready =>
      intro e he
      have hcases : e = 0 ∨ e = 1 := by omega
      rcases hcases with rfl | rfl
      · rw [henvs2, Function.update_of_ne (by decide), henvs1, Function.update_self]
        exact ⟨rfl, rfl⟩
      · rw [henvs2, Function.update_self]
        exact ⟨rfl, rfl⟩
    case others =>
      intro e he hle
      rw [henvs2, Function.update_of_ne (by omega), henvs1, Function.update_of_ne (by omega)]
      exact (hfree e he).1
    case unmapped =>
      intro a
      rw [hc2.ptes, hc1.ptes]
      exact hptes0 a
    case noTables =>
      intro e d
      have hd : d.val < 1024 := Nat.lt_trans d.isLt (by decide)
      by_cases hee1 : e.val = e1
      · rw [hee1]
        exact hc2.pde_self d.isLt
      rw [hc2.pde_of_ne hee1 hd]
      by_cases hee0 : e.val = e0
      · rw [hee0]
        exact hc1.pde_self d.isLt
      rw [hc1.pde_of_ne hee0 hd, Kernel.pde, Kernel.pgdir, if_pos (hfree e e.isLt).1]
  · use l2, hmem2
    rw [hl1, List.length_cons, hl2, List.length_cons] at hlen
    exact hlen

end Jos
