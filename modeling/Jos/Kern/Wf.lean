import Jos.Kern.Freeing

/-!
# Well-formed kernels

A kernel is well formed when the page allocator and the environments are, and when every
page directory agrees with the one of the kernel above `UTOP`.  The memory management
system calls keep it well formed, and what they do to page table entries is stated here
once for all their callers.
-/

namespace Jos

open Bytes

variable {avail held : Finset Nat} {own : Nat → Nat} {l fl : List Nat} {s s' s'' : Kernel}

/-- Above `UTOP` the directories refer to pages that exist. -/
structure DirInv (s : Kernel) : Prop where
  kern : ∀ d, NUPDE ≤ d → d < 1024 → ∀ p, refOf (s.entry s.kernPgdir d) = some p → p < s.npages
  upper : ∀ (e : Fin NENV) pg, s.pgdir e = some pg → ∀ d, NUPDE ≤ d → d < 1024 →
    ∀ p, refOf (s.pde e d) = some p → p < s.npages

/-- The page allocator and the environments are in order. -/
structure Wf (avail held : Finset Nat) (own : Nat → Nat) (s : Kernel) : Prop where
  mem : ∃ l, MemInv avail held own l s
  env : ∃ fl, EnvInv fl s
  dirs : DirInv s

/-! ### What keeps a kernel well formed -/

theorem DirInv.of_same (h : DirInv s) (hn : s'.npages = s.npages)
    (hk : s'.kernPgdir = s.kernPgdir)
    (hkern : ∀ d < 1024, s'.entry s.kernPgdir d = s.entry s.kernPgdir d)
    (hpg : ∀ (e : Fin NENV) pg, s'.pgdir e = some pg → s.pgdir e = some pg ∧
      ∀ d, NUPDE ≤ d → d < 1024 → s'.pde e d = s.pde e d) :
  DirInv s'
  := by
  constructor
  case kern =>
    intro d hd hd'
    rw [hk, hn, hkern d hd']
    apply h.kern d hd hd'
  case upper =>
    intro e pg he d hd hd'
    obtain ⟨he', hpde⟩ := hpg e pg he
    rw [hpde d hd hd', hn]
    exact h.upper e pg he' d hd hd'

/-- Edits of page table entries keep the directories in order. -/
theorem DirInv.edit {f : PteAddr → Word} (h : DirInv s) (hedit : Edit held s s' f) :
  DirInv s'
  := by
  apply h.of_same hedit.quiet.npages hedit.quiet.kernPgdir hedit.kern
  intro e pg he
  rw [hedit.quiet.pgdir] at he
  use he
  apply hedit.upper e

/-- Creating an environment keeps the directories in order. -/
theorem DirInv.created {e : Fin NENV} {p : Nat} {type : EnvType} {parentId : Word}
    (h : DirInv s) (hc : Created e p type parentId s s') (hmem : MemInv avail held own l s') :
  DirInv s'
  := by
  have hk : s'.kernPgdir = s.kernPgdir := hc.sameTables.kernPgdir
  have hn : s'.npages = s.npages := by rw [hc.quiet]
  have hkern : ∀ d < 1024, s'.entry s.kernPgdir d = s.entry s.kernPgdir d :=
    hc.sameTables.entry _ (Or.inl rfl)
  constructor
  case kern =>
    intro d hd hd'
    rw [hk, hn, hkern d hd']
    apply h.kern d hd hd'
  case upper =>
    intro e' pg he d hd hd'
    rw [hn]
    by_cases hee : e' = e
    · -- the entries of a new directory are copied, or refer to the directory itself
      rw [hee, Kernel.pde, hc.pgdir_self]
      by_cases hu : d = UVPTX
      · have hp : p < s'.npages := Kernel.lt_npages hmem (x := .dir e) hc.pgdir_self
        have hle := hmem.npages_le
        have huvpt : s'.entry p UVPTX = page2pa p ||| PTE_U ||| PTE_P := by
          rw [BitVec.or_assoc, BitVec.or_comm PTE_U, ← BitVec.or_assoc]
          exact hc.fresh.uvpt
        intro q hq
        simp only at hq
        rw [hu, huvpt, refOf_mk (by omega) (by decide)] at hq
        obtain rfl := Option.some.inj hq
        rw [← hn]
        exact hp
      · intro q hq
        simp only at hq
        rw [hc.fresh.kern d hd hd' hu] at hq
        exact h.kern d hd hd' q hq
    · have hee' : e'.val ≠ e := fun h => hee (Fin.ext h)
      rw [hc.pde_of_ne hee' hd']
      rw [hc.pgdir_of_ne hee'] at he
      exact h.upper e' pg he d hd hd'

theorem Freed.pgdir_self {e : Fin NENV} (h : Freed held e s s') :
  s'.pgdir e = none
  := by
  rw [Kernel.pgdir, h.envs, Function.update_self]
  simp

theorem Freed.pgdir_of_ne {e : Fin NENV} (h : Freed held e s s') {e' : Nat} (he : e' ≠ e) :
  s'.pgdir e' = s.pgdir e'
  := by
  rw [Kernel.pgdir, h.envs, Function.update_of_ne he]
  rfl

/-- Freeing an environment keeps the directories in order. -/
theorem DirInv.freed {e : Fin NENV} (h : DirInv s) (hf : Freed held e s s') :
  DirInv s'
  := by
  have hk : s'.kernPgdir = s.kernPgdir := by rw [hf.quiet]
  have hn : s'.npages = s.npages := by rw [hf.quiet]
  apply h.of_same hn hk hf.kern
  intro e' pg he
  by_cases hee : e' = e
  · rw [hee, hf.pgdir_self] at he
    cases he
  · rw [hf.pgdir_of_ne (fun h => hee (Fin.ext h))] at he
    use he
    intro d _ hd'
    apply hf.pde e' hee d hd'

/-- An edit that keeps the page allocator in order keeps the kernel well formed. -/
theorem Wf.edit {held' : Finset Nat} {own' : Nat → Nat} {f : PteAddr → Word}
    (h : Wf avail held own s) (hedit : Edit held s s' f)
    (hmem : ∃ l', MemInv avail held' own' l' s') :
  Wf avail held' own' s'
  := by
  constructor
  case mem => apply hmem
  case env =>
    obtain ⟨fl, hfl⟩ := h.env
    use fl
    apply hfl.congr hedit.quiet.envs hedit.quiet.envFreeList
  case dirs => apply h.dirs.edit hedit

/-- Changing a live environment but for its directory and being live keeps a kernel well
formed. -/
theorem Wf.setEnv (h : Wf avail held own s) {e : Nat} {env : Env}
    (hlive : (s.envs e).envStatus ≠ .ENV_FREE) (hst : env.envStatus ≠ .ENV_FREE)
    (hpg : env.envPgdir = (s.envs e).envPgdir) :
  Wf avail held own (s.setEnv e env)
  := by
  have hpg' : (s.setEnv e env).pgdir e = s.pgdir e := by
    rw [Kernel.setEnv_pgdir, if_neg hst, Kernel.pgdir, if_neg hlive, hpg]
  obtain ⟨hpgdir, hpde, -⟩ := Kernel.setEnv_views hpg'
  constructor
  case mem =>
    obtain ⟨l, hl⟩ := h.mem
    use l
    apply hl.setEnv hpg'
  case env =>
    obtain ⟨fl, hfl⟩ := h.env
    use fl
    apply hfl.setEnv hlive hst hpg
  case dirs =>
    apply h.dirs.of_same (by rfl) (by rfl)
    · intro d _
      rfl
    · intro e' pg he
      rw [hpgdir] at he
      use he
      intro d _ _
      apply hpde

/-- What the memory management does not look at may change. -/
theorem Wf.congr (h : Wf avail held own s) (hmem : s'.mem = s.mem) (hnpages : s'.npages = s.npages)
    (hpages : s'.pages = s.pages) (hlist : s'.pageFreeList = s.pageFreeList)
    (hkern : s'.kernPgdir = s.kernPgdir) (henvs : s'.envs = s.envs)
    (henvList : s'.envFreeList = s.envFreeList) :
  Wf avail held own s'
  := by
  have hentry : ∀ p i, s'.entry p i = s.entry p i := by
    intro p i
    rw [Kernel.entry, Kernel.entry, hmem]
  have hpg : ∀ e, s'.pgdir e = s.pgdir e := by
    intro e
    rw [Kernel.pgdir, Kernel.pgdir, henvs]
  constructor
  case mem =>
    obtain ⟨l, hl⟩ := h.mem
    use l
    apply hl.same_tables (Kernel.SameTables.of_mem henvs hkern hmem) hpages hlist hnpages
  case env =>
    obtain ⟨fl, hfl⟩ := h.env
    use fl
    apply hfl.congr henvs henvList
  case dirs =>
    apply h.dirs.of_same hnpages hkern
    · intro d _
      apply hentry
    · intro e pg he
      rw [hpg] at he
      use he
      intro d _ _
      simp only [Kernel.pde, hpg, hentry]

end Jos
