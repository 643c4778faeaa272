import Jos.Kern.Mapping

/-!
# Environments keep the invariants

Creating and freeing environments keep the invariant of the page allocator, and the free
environments stay linked in a list.  Freeing an environment gives up every reference its
page directory holds, one page table after the other.
-/

namespace Jos

open Bytes

variable {avail held : Finset Nat} {own : Nat → Nat} {l : List Nat} {s s' s'' : Kernel}

/-- Whether the environment `e` exists and is not free. -/
def Kernel.Live (s : Kernel) (e : Nat) : Prop :=
  e < NENV ∧ (s.envs e).envStatus ≠ .ENV_FREE

/-- The free environments `fl` are linked in a list that ends behind the last environment,
and the others have page directories. -/
structure EnvInv (fl : List Nat) (s : Kernel) : Prop where
  chain : Chain (fun e => if e < NENV then (s.envs e).envLink else none) s.envFreeList
    (fl ++ [NENV])
  nodup : fl.Nodup
  mem_free : ∀ e, e ∈ fl ↔ e < NENV ∧ (s.envs e).envStatus = .ENV_FREE
  pgdir : ∀ e, s.Live e → (s.envs e).envPgdir ≠ none

namespace Kernel

/-- A live environment has a page directory. -/
theorem Live.pgdir {fl : List Nat} {e : Nat} (h : s.Live e) (hi : EnvInv fl s) :
  ∃ pg, (s.envs e).envPgdir = some pg ∧ s.pgdir e = some pg
  := by
  obtain ⟨pg, hpg⟩ := Option.ne_none_iff_exists'.mp (hi.pgdir e h)
  use pg, hpg
  rw [Kernel.pgdir, if_neg h.2, hpg]

/-- An environment with a page directory is live. -/
theorem pgdir_eq_some {e pg : Nat} (h : s.pgdir e = some pg) :
  (s.envs e).envStatus ≠ .ENV_FREE ∧ (s.envs e).envPgdir = some pg
  := by
  rw [Kernel.pgdir] at h
  split at h
  case isTrue h' => cases h
  case isFalse h' => use h'

/-! ### Changing an environment -/

theorem setEnv_pgdir_of_ne {e e' : Nat} (env : Env) (h : e' ≠ e) :
  (s.setEnv e env).pgdir e' = s.pgdir e'
  := by
  simp only [Kernel.pgdir, Kernel.setEnv, Function.update_of_ne h]

theorem setEnv_pgdir (e : Nat) (env : Env) :
  (s.setEnv e env).pgdir e = if env.envStatus = .ENV_FREE then none else env.envPgdir
  := by
  simp only [Kernel.pgdir, Kernel.setEnv, Function.update_self]

/-- Changing an environment but for its directory changes nothing the slots refer to. -/
theorem setEnv_views {e : Nat} {env : Env} (h : (s.setEnv e env).pgdir e = s.pgdir e) :
  (∀ e', (s.setEnv e env).pgdir e' = s.pgdir e') ∧
  (∀ e' d, (s.setEnv e env).pde e' d = s.pde e' d) ∧
  (∀ e' d t, (s.setEnv e env).pte e' d t = s.pte e' d t) ∧
  (s.setEnv e env).slotRef = s.slotRef
  := by
  have hpgdir : ∀ e', (s.setEnv e env).pgdir e' = s.pgdir e' := by
    intro e'
    by_cases he : e' = e
    · rw [he, h]
    · apply setEnv_pgdir_of_ne env he
  have hpde : ∀ e' d, (s.setEnv e env).pde e' d = s.pde e' d := by
    intro e' d
    rw [Kernel.pde, Kernel.pde, hpgdir]
    rfl
  have hpte : ∀ e' d t, (s.setEnv e env).pte e' d t = s.pte e' d t := by
    intro e' d t
    rw [Kernel.pte, Kernel.pte, hpde]
    rfl
  use hpgdir, hpde, hpte
  funext x
  cases x with
  | dir e' => apply hpgdir
  | table e' d => rw [slotRef, slotRef, hpde]
  | page e' d t => rw [slotRef, slotRef, hpte]
  | kern d => rfl

/-- What the slots refer to when the directory of `e` changes between none and one whose
entries below `UTOP` are not present. -/
theorem setEnv_slotRef {e : Fin NENV} {env : Env}
    (hold : ∀ d : Fin NUPDE, refOf (s.pde e d) = none)
    (hnew : ∀ d : Fin NUPDE, refOf ((s.setEnv e env).pde e d) = none) :
  (s.setEnv e env).slotRef = Function.update s.slotRef (.dir e) ((s.setEnv e env).pgdir e)
  := by
  funext x
  cases x with
  | dir e' =>
      by_cases he : e' = e
      · rw [he, Function.update_self]
        rfl
      · rw [Function.update_of_ne (by simp [he]), slotRef, slotRef,
          setEnv_pgdir_of_ne env (fun h => he (Fin.ext h))]
  | table e' d =>
      rw [Function.update_of_ne (by simp), slotRef, slotRef]
      by_cases he : e' = e
      · rw [he, hold, hnew]
      · rw [Kernel.pde, setEnv_pgdir_of_ne env (fun h => he (Fin.ext h)), Kernel.pde]
        rfl
  | page e' d t =>
      rw [Function.update_of_ne (by simp), slotRef, slotRef]
      by_cases he : e' = e
      · rw [he, Kernel.pte, hnew, Kernel.pte, hold]
      · rw [Kernel.pte, Kernel.pte, Kernel.pde, setEnv_pgdir_of_ne env (fun h => he (Fin.ext h)),
          Kernel.pde]
        rfl
  | kern d =>
      rw [Function.update_of_ne (by simp)]
      rfl

end Kernel

/-- Changing an environment but for its directory keeps the invariant of the allocator. -/
theorem MemInv.setEnv (h : MemInv avail held own l s) {e : Nat} {env : Env}
    (hpg : (s.setEnv e env).pgdir e = s.pgdir e) :
  MemInv avail held own l (s.setEnv e env)
  := by
  have hb := h.balanced
  rw [show s.store l held own = (s.setEnv e env).store l held own by
    rw [Kernel.store, Kernel.store, (Kernel.setEnv_views hpg).2.2.2]
    rfl] at hb
  apply h.of_store (by rfl) (by rfl) (by rfl) (by rfl) hb

/-- Changing a live environment but for its directory, link and being live keeps the
invariant of the environments. -/
theorem EnvInv.setEnv {fl : List Nat} (h : EnvInv fl s) {e : Nat} {env : Env}
    (hlive : (s.envs e).envStatus ≠ .ENV_FREE) (hst : env.envStatus ≠ .ENV_FREE)
    (hpg : env.envPgdir = (s.envs e).envPgdir) :
  EnvInv fl (s.setEnv e env)
  := by
  have hne : ∀ e', e' ∈ fl → e' ≠ e := by
    rintro e' he' rfl
    apply hlive ((h.mem_free e').mp he').2
  constructor
  case chain =>
    apply h.chain.congr
    intro e' he'
    simp only [Kernel.setEnv]
    split
    case isTrue hlt =>
      rw [Function.update_of_ne]
      apply hne
      obtain he' | he' := List.mem_append.mp he'
      · apply he'
      · obtain rfl := List.mem_singleton.mp he'
        omega
    case isFalse => rfl
  case nodup => apply h.nodup
  case mem_free =>
    intro e'
    rw [h.mem_free e']
    simp only [Kernel.setEnv]
    by_cases he : e' = e
    · rw [he, Function.update_self]
      simp [hlive, hst]
    · rw [Function.update_of_ne he]
  case pgdir =>
    intro e' he'
    simp only [Kernel.Live, Kernel.setEnv] at he' ⊢
    by_cases he : e' = e
    · rw [he, Function.update_self] at he' ⊢
      rw [hpg]
      apply h.pgdir
      use he'.1
    · rw [Function.update_of_ne he] at he' ⊢
      apply h.pgdir e' he'

/-- The invariant of the environments depends on the environments only. -/
theorem EnvInv.congr {fl : List Nat} (h : EnvInv fl s) (henvs : s'.envs = s.envs)
    (hlist : s'.envFreeList = s.envFreeList) :
  EnvInv fl s'
  := by
  constructor
  case chain =>
    rw [henvs, hlist]
    apply h.chain
  case nodup => apply h.nodup
  case mem_free =>
    rw [henvs]
    apply h.mem_free
  case pgdir =>
    simp only [Kernel.Live, henvs]
    apply h.pgdir

/-! ### Finding an environment -/

/-- The environment an identifier stands for when `cur` is the current environment. -/
def Kernel.findEnv (s : Kernel) (cur : Nat) (envid : Word) (checkperm : Bool) : Option Nat :=
  let e := ENVX envid
  if envid = 0 then some cur
  else if (s.envs e).envStatus = .ENV_FREE ∨ (s.envs e).envId ≠ envid then none
  else if checkperm = true ∧ e ≠ cur ∧ (s.envs e).envParentId ≠ (s.envs cur).envId then none
  else some e

theorem curenv_eq {cur : Nat} (hcur : s.curenv = some cur) :
  curenv s = .ok (cur, s)
  := by
  rw [curenv, Prog.get_bind, hcur]
  rfl

theorem curPgdir_eq {cur pg : Nat} (hcur : s.curenv = some cur)
    (hpg : (s.envs cur).envPgdir = some pg) :
  curPgdir s = .ok (pg, s)
  := by
  rw [curPgdir, Prog.bind_of_eq (curenv_eq hcur), Prog.get_bind, hpg]
  rfl

theorem envid2env_eq {cur : Nat} (hcur : s.curenv = some cur) (envid : Word) (checkperm : Bool) :
  envid2env envid checkperm s = .ok (s.findEnv cur envid checkperm, s)
  := by
  rw [envid2env, Kernel.findEnv]
  simp only
  split
  case isTrue h0 =>
    rw [Prog.bind_of_eq (curenv_eq hcur)]
    rfl
  case isFalse h0 =>
    rw [Prog.get_bind]
    split
    case isTrue h1 => rfl
    case isFalse h1 =>
      rw [hcur]
      by_cases hc : checkperm = true ∧ ENVX envid ≠ cur
      · rw [if_pos ⟨hc.1, fun h => hc.2 (Option.some.inj h).symm⟩, Prog.bind_of_eq (curenv_eq hcur)]
        by_cases hp : (s.envs (ENVX envid)).envParentId ≠ (s.envs cur).envId
        · rw [if_pos hp, if_pos ⟨hc.1, hc.2, hp⟩]
          rfl
        · rw [if_neg hp, if_neg (fun h => hp h.2.2)]
          rfl
      · rw [if_neg, if_neg (fun h => hc ⟨h.1, h.2.1⟩)]
        · rfl
        · rintro ⟨h, hne⟩
          apply hc ⟨h, fun he => hne (congrArg some he.symm)⟩

/-- An environment that is found is live. -/
theorem findEnv_live {cur e : Nat} {envid : Word} {checkperm : Bool} (hcur : s.Live cur)
    (h : s.findEnv cur envid checkperm = some e) :
  s.Live e
  := by
  simp only [Kernel.findEnv] at h
  split at h
  · obtain rfl := Option.some.inj h
    apply hcur
  · split at h
    · cases h
    case isFalse h1 =>
      split at h
      · cases h
      · obtain rfl := Option.some.inj h
        use ENVX_lt envid
        intro hf
        apply h1 (Or.inl hf)

/-! ### Making a page directory -/

theorem PDX_UTOP :
  PDX (BitVec.ofNat 32 UTOP) = NUPDE
  := by decide

theorem PDX_UVPT :
  PDX (BitVec.ofNat 32 UVPT) = UVPTX
  := by decide

/-- Only the memory of the page `p` is changed. -/
structure OnlyPage (p : Nat) (s s' : Kernel) : Prop where
  quiet : ∃ m, s' = { s with mem := m }
  mem : ∀ q ≠ p, ∀ o < PGSIZE, s'.mem (q * PGSIZE + o) = s.mem (q * PGSIZE + o)

namespace OnlyPage

variable {p : Nat}

theorem refl (p : Nat) (s : Kernel) :
  OnlyPage p s s
  := by
  constructor
  · use s.mem
  · intro q _ o _
    rfl

theorem setEntry (h : OnlyPage p s s') {i : Nat} (hi : i < 1024) (w : Word) :
  OnlyPage p s (s'.setEntry p i w)
  := by
  constructor
  · obtain ⟨m, rfl⟩ := h.quiet
    use write32 m (p * PGSIZE + 4 * i) w
    rfl
  · intro q hq o ho
    rw [← h.mem q hq o ho]
    apply Bytes.write32_of_disjoint
    simp only [PGSIZE] at ho ⊢
    omega

theorem kernPgdir (h : OnlyPage p s s') :
  s'.kernPgdir = s.kernPgdir
  := by
  obtain ⟨m, rfl⟩ := h.quiet
  rfl

end OnlyPage

/-- Words of other pages are kept with the memory of other pages. -/
theorem entry_of_mem {p : Nat}
    (h : ∀ q ≠ p, ∀ o < PGSIZE, s'.mem (q * PGSIZE + o) = s.mem (q * PGSIZE + o))
    {q : Nat} (hq : q ≠ p) {i : Nat} (hi : i < 1024) :
  s'.entry q i = s.entry q i
  := by
  apply Bytes.read32_congr
  intro a ha ha'
  have hmem := h q hq (a - q * PGSIZE)
  simp only [PGSIZE] at ha ha' hmem
  rw [show q * 4096 + (a - q * 4096) = a by omega] at hmem
  apply hmem
  omega

/-- Copying one entry of the kernel's directory. -/
theorem copyKernPde_ends {p i : Nat} (hp : p ≠ s.kernPgdir) (hi : i < 1024)
    (h : OnlyPage p s s')
    (hentry : ∀ d < 1024, s'.entry p d =
      if NUPDE ≤ d ∧ d < i then s.entry s.kernPgdir d else s.entry p d) :
  (copyKernPde p i).Ends s' (fun _ s'' => OnlyPage p s s'' ∧ ∀ d < 1024, s''.entry p d =
    if NUPDE ≤ d ∧ d < i + 1 then s.entry s.kernPgdir d else s.entry p d) (fun _ => False)
  := by
  rw [copyKernPde, PDX_UTOP, Prog.ends_ite]
  constructor
  · intro hge
    rw [Prog.ends_modify]
    use h.setEntry hi _
    intro d hd
    by_cases hdi : d = i
    · rw [hdi, Kernel.entry_setEntry, if_pos (by omega), h.kernPgdir]
      apply entry_of_mem h.mem hp.symm hi
    · rw [Kernel.entry_setEntry_of_ne _ _ hi hd (Or.inr hdi), hentry d hd]
      by_cases hdlt : NUPDE ≤ d ∧ d < i
      · rw [if_pos hdlt, if_pos (by omega)]
      · rw [if_neg hdlt, if_neg (by omega)]
  · intro hlt
    rw [Prog.ends_pure]
    use h
    intro d hd
    rw [hentry d hd]
    by_cases hdlt : NUPDE ≤ d ∧ d < i
    · rw [if_pos hdlt, if_pos (by omega)]
    · rw [if_neg hdlt, if_neg (by omega)]

/-- Copying the first `n` entries of the kernel's directory, those from `PDX(UTOP)` on. -/
theorem copyKernPdes_ends {p n : Nat} (hp : p ≠ s.kernPgdir) (hn : n ≤ 1024) :
  (Prog.forUp 0 n (copyKernPde p)).Ends s (fun _ s' => OnlyPage p s s' ∧ ∀ d < 1024,
    s'.entry p d = if NUPDE ≤ d ∧ d < n then s.entry s.kernPgdir d else s.entry p d)
    (fun _ => False)
  := by
  apply Prog.ends_forUp_zero (fun i s' => OnlyPage p s s' ∧ ∀ d < 1024, s'.entry p d =
    if NUPDE ≤ d ∧ d < i then s.entry s.kernPgdir d else s.entry p d)
  · intro i s' hi ⟨honly, hentry⟩
    apply copyKernPde_ends hp (by omega) honly hentry
  · use OnlyPage.refl p s
    intro d _
    rw [if_neg (by omega)]

/-- Copying the entries of the kernel's directory from `PDX(UTOP)` on. -/
theorem copyKernPgdir_ok {p : Nat} (hp : p ≠ s.kernPgdir) :
  ∃ s', Prog.forUp 0 NPDENTRIES (copyKernPde p) s = .ok ((), s') ∧ OnlyPage p s s'
    ∧ ∀ d < 1024, s'.entry p d = if NUPDE ≤ d then s.entry s.kernPgdir d else s.entry p d
  := by
  have hn : NPDENTRIES ≤ 1024 := Nat.le_refl 1024
  have h := copyKernPdes_ends hp hn
  obtain ⟨_, s', heq, honly, hentry⟩ := h.returns
  use s', heq, honly
  intro d hd
  rw [hentry d hd]
  simp only [NPDENTRIES, hd, and_true]

/-- The directory `p` a new environment gets: nothing is mapped below `UTOP`, the entry of
`UVPT` is the directory itself, and the others are those of the kernel. -/
structure FreshDir (s s' : Kernel) (p : Nat) : Prop where
  zero : ∀ d < NUPDE, s'.entry p d = 0
  kern : ∀ d, NUPDE ≤ d → d < 1024 → d ≠ UVPTX → s'.entry p d = s.entry s.kernPgdir d
  uvpt : s'.entry p UVPTX = page2pa p ||| PTE_P ||| PTE_U
  mem : ∀ q ≠ p, ∀ o < PGSIZE, s'.mem (q * PGSIZE + o) = s.mem (q * PGSIZE + o)

/-- Setting up the directory of a free environment takes the first free page, to which the
running code then has a reference. -/
theorem envSetupVm_ok {p : Nat} (h : MemInv avail held own (p :: l) s) (e : Nat) :
  ∃ s', envSetupVm e s = .ok (0, s') ∧ FreshDir s s' p
    ∧ s' = { s with
        mem := s'.mem
        pages := s'.pages
        pageFreeList := s'.pageFreeList
        envs := Function.update s.envs e { s.envs e with envPgdir := some p } }
    ∧ s.SameTables { s' with envs := s.envs }
    ∧ MemInv avail held (Function.update own p (own p + 1)) l { s' with envs := s.envs }
  := by
  have hp := h.refs_free List.mem_cons_self
  have hlt := h.avail_lt p hp.1
  have hn := h.npages_le
  have hpk : p ≠ s.kernPgdir := by
    rintro rfl
    apply h.kern_notMem hp.1
  have hpa : PGNUM (page2pa p) = p := PGNUM_page2pa (by omega)
  have hnt := Kernel.not_isTable h hp.1 hp.2.2.1
  have hp' : p ∉ l := (List.nodup_cons.mp h.balanced.nodup).1
  obtain ⟨s2, heq2, honly, hentry⟩ := copyKernPgdir_ok (p := p)
    (s := (s.taken p).setEnv e { (s.taken p).envs e with envPgdir := some p }) hpk
  have hmem : ∀ q ≠ p, ∀ o < PGSIZE, ((s2.incref p).setEntry p UVPTX
      (page2pa p ||| PTE_P ||| PTE_U)).mem (q * PGSIZE + o) = s.mem (q * PGSIZE + o) := by
    intro q hq o ho
    have h2 := honly.mem q hq o ho
    simp only [Kernel.setEntry, UVPTX, Kernel.setEnv, Kernel.taken, Kernel.zeroPage, Bytes.fill,
      PGSIZE] at ho h2 ⊢
    rw [Bytes.write32_of_disjoint _ _ (by omega)]
    apply h2.trans
    rw [if_neg (by omega)]
    rfl
  obtain ⟨m, rfl⟩ := honly.quiet
  have hsame : s.SameTables { ((({ (s.taken p).setEnv e { (s.taken p).envs e with
      envPgdir := some p } with mem := m } : Kernel).incref p).setEntry p UVPTX
        (page2pa p ||| PTE_P ||| PTE_U)) with envs := s.envs } := by
    constructor
    case envs => rfl
    case kernPgdir => rfl
    case entry =>
      intro r hr i hi
      apply entry_of_mem hmem _ hi
      rintro rfl
      apply hnt hr
  use (({ (s.taken p).setEnv e { (s.taken p).envs e with envPgdir := some p } with
    mem := m } : Kernel).incref p).setEntry p UVPTX (page2pa p ||| PTE_P ||| PTE_U)
  constructor
  · rw [envSetupVm, Prog.bind_of_eq (pageAlloc_eq_some h.chain.1 hlt hn)]
    simp only [PDX_UVPT]
    rw [page2kva, Prog.bind_of_eq (KADDR_eq (by rw [hpa]; apply hlt)), hpa, Prog.modify_bind,
      Prog.bind_of_eq heq2, Prog.bind_of_eq (pageIncref_eq p), Prog.modify_bind]
    rfl
  · constructor
    · constructor
      case zero =>
        intro d hd
        simp only [NUPDE] at hd
        rw [Kernel.entry_setEntry_of_ne _ _ (by decide) (by omega)
          (Or.inr (by simp only [UVPTX]; omega))]
        apply (hentry d (by omega)).trans
        rw [if_neg (by simp only [NUPDE]; omega)]
        apply entry_taken p (by omega)
      case kern =>
        intro d hd hd' hne
        rw [Kernel.entry_setEntry_of_ne _ _ (by decide) hd' (Or.inr hne)]
        apply (hentry d hd').trans
        rw [if_pos hd]
        apply h.taken_sameTables.entry _ (Or.inl rfl) d hd'
      case uvpt => apply Kernel.entry_setEntry
      case mem => apply hmem
    · constructor
      · rfl
      · use hsame
        have h' := h.taken.incref hp.1 hp'
        rw [Finset.erase_insert hp.2.1] at h'
        apply h'.same_tables _ (by rfl) (by rfl) (by rfl)
        constructor
        case envs => rfl
        case kernPgdir => rfl
        case entry =>
          intro r hr i hi
          have ht := h.taken_sameTables
          rw [isTable_sameTables (incref_sameTables p), isTable_sameTables ht] at hr
          apply (hsame.entry r hr i hi).trans
          apply (ht.entry r hr i hi).symm

/-! ### Creating an environment -/

/-- The environment a free one becomes. -/
def newEnv (old : Env) (e p : Nat) (type : EnvType) (parentId : Word) : Env :=
  { old with
    envPgdir := some p
    envId := nextEnvId e old.envId
    envParentId := parentId
    envType := type
    envStatus := .ENV_RUNNABLE
    envRuns := 0
    envTf := initialTf
    envPgfaultUpcall := 0
    envIpcRecving := false }

/-- From `s` to `s'` the free environment `e` was created with the page directory `p`. -/
structure Created (e p : Nat) (type : EnvType) (parentId : Word) (s s' : Kernel) : Prop where
  free : (s.envs e).envStatus = .ENV_FREE
  fresh : FreshDir s s' p
  quiet : s' = { s with
    mem := s'.mem
    pages := s'.pages
    pageFreeList := s'.pageFreeList
    envs := Function.update s.envs e (newEnv (s.envs e) e p type parentId)
    envFreeList := (s.envs e).envLink }
  sameTables : s.SameTables { s' with envs := s.envs }

namespace Created

variable {e p : Nat} {type : EnvType} {parentId : Word} (h : Created e p type parentId s s')
include h

theorem envs :
  s'.envs = Function.update s.envs e (newEnv (s.envs e) e p type parentId)
  := by rw [h.quiet]

theorem pgdir_self :
  s'.pgdir e = some p
  := by
  rw [Kernel.pgdir, h.envs, Function.update_self]
  rfl

theorem pgdir_of_ne {e' : Nat} (he : e' ≠ e) :
  s'.pgdir e' = s.pgdir e'
  := by
  rw [Kernel.pgdir, h.envs, Function.update_of_ne he]
  rfl

theorem pgdir_old :
  s.pgdir e = none
  := by
  rw [Kernel.pgdir, if_pos h.free]

theorem pde_self {d : Nat} (hd : d < NUPDE) :
  s'.pde e d = 0
  := by
  rw [Kernel.pde, h.pgdir_self]
  apply h.fresh.zero d hd

theorem pde_of_ne {e' : Fin NENV} (he : e'.val ≠ e) {d : Nat} (hd : d < 1024) :
  s'.pde e' d = s.pde e' d
  := by
  rw [← h.sameTables.pde e' hd, Kernel.pde, Kernel.pde, h.pgdir_of_ne he]
  rfl

/-- Creating an environment edits no page table entry. -/
theorem ptes :
  s'.ptes = s.ptes
  := by
  funext ⟨e', d, t⟩
  have hd := d.isLt
  simp only [Kernel.ptes]
  by_cases he : e'.val = e
  · rw [Kernel.pte, Kernel.pte, he, h.pde_self hd, Kernel.pde, h.pgdir_old, refOf_zero]
  · rw [← h.sameTables.pte e' d t.isLt, Kernel.pte, Kernel.pte, Kernel.pde, Kernel.pde,
      h.pgdir_of_ne he]
    rfl

end Created

/-- What the slots refer to after an environment is created. -/
theorem Created.slotRef {e : Fin NENV} {p : Nat} {type : EnvType} {parentId : Word}
    (h : Created e p type parentId s s') :
  s'.slotRef = Function.update s.slotRef (.dir e) (some p)
  := by
  have hsame := h.sameTables
  have heq : s'.slotRef = (Kernel.setEnv { s' with envs := s.envs } e
      (newEnv (s.envs e) e p type parentId)).slotRef := by
    have ht : (Kernel.setEnv { s' with envs := s.envs } e
        (newEnv (s.envs e) e p type parentId)).SameTables s' :=
      Kernel.SameTables.of_mem h.envs (by rfl) (by rfl)
    apply ht.slotRef
  have hpg : (Kernel.setEnv { s' with envs := s.envs } e
      (newEnv (s.envs e) e p type parentId)).pgdir e = some p := by
    rw [Kernel.setEnv_pgdir, if_neg (by simp [newEnv])]
    rfl
  rw [heq, Kernel.setEnv_slotRef, hsame.slotRef, hpg]
  · intro d
    have hd := d.isLt
    simp only [NUPDE] at hd
    rw [hsame.pde e (by omega), Kernel.pde, h.pgdir_old, refOf_zero]
  · intro d
    rw [Kernel.pde, hpg]
    change refOf (s'.entry p d) = none
    rw [h.fresh.zero d d.isLt, refOf_zero]

/-- Setting up the first free environment takes it off the list. -/
theorem EnvInv.alloc {fl : List Nat} {e p : Nat} {type : EnvType} {parentId : Word}
    (h : EnvInv (e :: fl) s) (helt : e < NENV)
    (henvs : s'.envs = Function.update s.envs e (newEnv (s.envs e) e p type parentId))
    (hlist : s'.envFreeList = (s.envs e).envLink) :
  EnvInv fl s'
  := by
  have hnd := List.nodup_cons.mp h.nodup
  constructor
  case chain =>
    have hchain := h.chain.2
    simp only [if_pos helt] at hchain
    rw [hlist]
    apply hchain.congr
    intro e' _
    rw [henvs]
    by_cases hee : e' = e
    · simp only [hee, Function.update_self]
      rfl
    · simp only [Function.update_of_ne hee]
  case nodup => apply hnd.2
  case mem_free =>
    intro e'
    have hm := h.mem_free e'
    rw [List.mem_cons] at hm
    rw [henvs]
    by_cases hee : e' = e
    · simp only [hee, Function.update_self]
      simp [newEnv, hnd.1]
    · rw [Function.update_of_ne hee, ← hm]
      simp [hee]
  case pgdir =>
    intro e' he'
    rw [Kernel.Live, henvs] at he'
    rw [henvs]
    by_cases hee : e' = e
    · simp only [hee, Function.update_self]
      simp [newEnv]
    · rw [Function.update_of_ne hee] at he' ⊢
      apply h.pgdir e' he'

/-- Creating the first free environment takes the first free page for its directory. -/
theorem envAllocType_creates {e p : Nat} (h : MemInv avail held own (p :: l) s)
    (hhead : s.envFreeList = some e) (helt : e < NENV) (hst : (s.envs e).envStatus = .ENV_FREE)
    (type : EnvType) (parentId : Word) :
  ∃ s', envAllocType type parentId s = .ok (.ok e, s')
    ∧ Created (⟨e, helt⟩ : Fin NENV) p type parentId s s' ∧ MemInv avail held own l s'
  := by
  obtain ⟨s1, heq1, hfresh, hs1, hsame, hmem⟩ := envSetupVm_ok h e
  have hp := h.refs_free List.mem_cons_self
  have henv1 : s1.envs = Function.update s.envs e { s.envs e with envPgdir := some p } := by
    rw [hs1]
  have hcreated : Created (⟨e, helt⟩ : Fin NENV) p type parentId s
      { s1.setEnv e (newEnv (s.envs e) e p type parentId) with
        envFreeList := (s.envs e).envLink } := by
    constructor
    case free => apply hst
    case fresh =>
      constructor
      · apply hfresh.zero
      · apply hfresh.kern
      · apply hfresh.uvpt
      · apply hfresh.mem
    case quiet =>
      rw [hs1]
      simp only [Kernel.setEnv, Function.update_idem]
    case sameTables =>
      constructor
      · rfl
      · apply hsame.kernPgdir
      · apply hsame.entry
  use { s1.setEnv e (newEnv (s.envs e) e p type parentId) with
    envFreeList := (s.envs e).envLink }
  constructor
  · rw [envAllocType, Prog.get_bind]
    simp only [hhead]
    rw [if_neg (by omega), Prog.bind_of_eq heq1, if_neg (by decide), Prog.modify_bind,
      Prog.modify_bind]
    simp only [Kernel.setEnv, henv1, Function.update_self]
    rfl
  · use hcreated
    have href := hcreated.slotRef
    rw [← hsame.slotRef] at href
    have hu : ∀ y, Kernel.slotRef { s1 with envs := s.envs } y ≠ some p := by
      intro y
      rw [hsame.slotRef]
      have h0 := hp.2.2.1
      rw [Kernel.refs, refCount.eq_zero_iff] at h0
      apply h0 y (mem_slots y)
    have hnew := hmem.attach href (by rfl) (by rfl) (by rfl) (by rfl)
      (by rw [hsame.slotRef]; apply hcreated.pgdir_old) (by simp)
      (fun y hy => (hu y hy).elim) (fun _ => hu)
    simp only [Function.update_self, Nat.add_sub_cancel, Function.update_idem] at hnew
    rw [Function.update_eq_self] at hnew
    apply hnew

/-- Creating an environment fails without an effect if no page is free. It uses what lies
behind the environments if no environment is free. -/
theorem envAllocType_ok {fl : List Nat} (h : MemInv avail held own l s) (he : EnvInv fl s)
    (hfree : s.envFreeList ≠ some NENV) (type : EnvType) (parentId : Word) :
  (l = [] ∧ envAllocType type parentId s = .ok (.error (-E_NO_MEM), s)) ∨
  (∃ (e : Fin NENV) (p : Nat) (l' fl' : List Nat) (s' : Kernel), fl = e.val :: fl' ∧ l = p :: l'
    ∧ envAllocType type parentId s = .ok (.ok e.val, s')
    ∧ Created e p type parentId s s' ∧ MemInv avail held own l' s' ∧ EnvInv fl' s')
  := by
  obtain ⟨e, fl, rfl⟩ : ∃ e fl', fl = e :: fl' := by
    cases fl with
    | nil => apply (hfree he.chain.1).elim
    | cons e fl' => use e, fl'
  have hhead : s.envFreeList = some e := he.chain.1
  obtain ⟨helt, hst⟩ := (he.mem_free e).mp List.mem_cons_self
  cases l with
  | nil =>
      left
      use rfl
      have hvm : envSetupVm e s = .ok (-E_NO_MEM, s) := by
        rw [envSetupVm, Prog.bind_of_eq (pageAlloc_eq_none (h.pageFreeList_eq_none.mpr rfl))]
        rfl
      rw [envAllocType, Prog.get_bind]
      simp only [hhead]
      rw [if_neg (by omega), Prog.bind_of_eq hvm, if_pos (by decide)]
      rfl
  | cons p l =>
      right
      obtain ⟨s', heq, hcreated, hmem⟩ := envAllocType_creates h hhead helt hst type parentId
      have hlist : s'.envFreeList = (s.envs e).envLink := by rw [hcreated.quiet]
      use ⟨e, helt⟩, p, l, fl, s', rfl, rfl, heq, hcreated, hmem
      exact he.alloc helt hcreated.envs hlist

end Jos
