import Jos.Kern.PageCalls
import Jos.Root.Env
import Jos.Root.Mapping

/-!
# Well-formed kernels

What holds between the operations of the kernel in `kern/`: the page allocator is balanced, the
free environments are linked in a list that ends, and the directories refer to pages that exist.
Creating and freeing environments follow the other kernel.  Each way in which an operation
changes the kernel is shown to keep it well formed, whatever the operation is.
-/

namespace Jos

namespace Root

open Bytes Prog

variable {avail held : Finset Nat} {own : Nat → Nat} {l fl : List Nat} {s s' s'' : Kernel}

/-- The free environments `fl` are linked in a list, and the others have page directories. -/
structure EnvInv (fl : List Nat) (s : Kernel) : Prop where
  chain : Chain (fun e => (s.envs e).envLink) s.envFreeList fl
  nodup : fl.Nodup
  mem_free : ∀ e, e ∈ fl ↔ e < NENV ∧ (s.envs e).envStatus = .ENV_FREE
  pgdir : ∀ e, s.Live e → (s.envs e).envPgdir ≠ none

/-- A page table entry that is present lets environments read. -/
def PageFlags (w : Word) : Prop :=
  refOf w ≠ none → w &&& PTE_U = PTE_U

theorem pageFlags_zero :
  PageFlags 0
  := by
  intro h
  rw [refOf_zero] at h
  exact (h rfl).elim

/-- What is mapped below `UTOP` is mapped for environments. -/
structure UserMaps (s : Kernel) : Prop where
  table : ∀ (e : Fin NENV) (d : Fin NUPDE), TableFlags (s.pde e d)
  page : ∀ a, PageFlags (s.ptes a)

/-- The page allocator and the environments are in order. Only page directories, page tables and
pages that are mapped count as references. -/
structure Wf (avail held : Finset Nat) (s : Kernel) : Prop where
  mem : ∃ l, MemInv avail held (fun _ => 0) l s
  env : ∃ fl, EnvInv fl s
  dirs : DirInv s
  user : UserMaps s

/-- No page has more references than its counter can count. -/
def Fits (avail : Finset Nat) (s : Kernel) : Prop :=
  s.Fits avail (fun _ => 0)

/-! ### The list of free environments -/

/-- A live environment has a page directory. -/
theorem EnvInv.live_pgdir (h : EnvInv fl s) {e : Nat} (hlive : s.Live e) :
  ∃ pg, (s.envs e).envPgdir = some pg ∧ s.pgdir e = some pg
  := by
  obtain ⟨pg, hpg⟩ := Option.ne_none_iff_exists'.mp (h.pgdir e hlive)
  use pg, hpg
  rw [Kernel.pgdir, if_neg hlive.2, hpg]

/-- Changing a live environment but for its directory and being live keeps the invariant. -/
theorem EnvInv.setEnv (h : EnvInv fl s) {e : Nat} {env : Env}
    (hlive : (s.envs e).envStatus ≠ .ENV_FREE) (hst : env.envStatus ≠ .ENV_FREE)
    (hpg : env.envPgdir = (s.envs e).envPgdir) :
  EnvInv fl (s.setEnv e env)
  := by
  have hne : ∀ e', e' ∈ fl → e' ≠ e := by
    rintro e' he' rfl
    apply hlive ((h.mem_free e').mp he').2
  constructor
  case chain =>
    apply h.chain.congr
    intro e' he'
    rw [s.setEnv_envs_of_ne env (hne e' he')]
  case nodup => apply h.nodup
  case mem_free =>
    intro e'
    rw [h.mem_free e']
    by_cases he : e' = e
    · rw [he, s.setEnv_envs_self]
      simp [hlive, hst]
    · rw [s.setEnv_envs_of_ne env he]
  case pgdir =>
    intro e' he'
    by_cases he : e' = e
    · rw [he, s.setEnv_envs_self, hpg]
      apply h.pgdir
      rw [he] at he'
      use he'.1
    · rw [s.setEnv_envs_of_ne env he]
      apply h.pgdir e'
      rw [Kernel.Live, s.setEnv_envs_of_ne env he] at he'
      apply he'

theorem EnvInv.congr (h : EnvInv fl s) (henvs : s'.envs = s.envs)
    (hlist : s'.envFreeList = s.envFreeList) :
  EnvInv fl s'
  := by
  constructor
  case chain =>
    rw [henvs, hlist]
    apply h.chain
  case nodup => apply h.nodup
  case mem_free =>
    rw [henvs]
    apply h.mem_free
  case pgdir =>
    simp only [Kernel.Live, henvs]
    apply h.pgdir

/-- Making the first free environment a live one with a directory takes it off the list. -/
theorem EnvInv.alloc {e : Nat} {env : Env} (h : EnvInv (e :: fl) s)
    (hst : env.envStatus ≠ .ENV_FREE) (hpg : env.envPgdir ≠ none)
    (henvs : s'.envs = Function.update s.envs e env)
    (hlist : s'.envFreeList = (s.envs e).envLink) :
  EnvInv fl s'
  := by
  have hnd := List.nodup_cons.mp h.nodup
  constructor
  case chain =>
    rw [hlist]
    apply h.chain.2.congr
    intro e' he'
    rw [henvs, Function.update_of_ne]
    rintro rfl
    apply hnd.1 he'
  case nodup => apply hnd.2
  case mem_free =>
    intro e'
    have hm := h.mem_free e'
    rw [List.mem_cons] at hm
    rw [henvs]
    by_cases hee : e' = e
    · rw [hee, Function.update_self]
      simp [hst, hnd.1]
    · rw [Function.update_of_ne hee, ← hm]
      simp [hee]
  case pgdir =>
    intro e' he'
    rw [Kernel.Live, henvs] at he'
    rw [henvs]
    by_cases hee : e' = e
    · rw [hee, Function.update_self]
      apply hpg
    · rw [Function.update_of_ne hee] at he' ⊢
      apply h.pgdir e' he'

/-- Freed environments are put at the head of the list of free environments. -/
theorem EnvInv.free (h : EnvInv fl s) {e : Fin NENV} (hlive : s.Live e)
    (hfreed : Freed held e s s') :
  EnvInv (e.val :: fl) s'
  := by
  have hefl : e.val ∉ fl := fun hm => hlive.2 ((h.mem_free e).mp hm).2
  have henvs := hfreed.envs
  have hlist : s'.envFreeList = some e.val := by rw [hfreed.quiet]
  constructor
  case chain =>
    rw [hlist, henvs]
    constructor
    · rfl
    · simp only [Function.update_self]
      apply h.chain.congr
      intro e' he'
      rw [Function.update_of_ne]
      rintro rfl
      apply hefl he'
  case nodup =>
    apply List.nodup_cons.mpr
    use hefl, h.nodup
  case mem_free =>
    intro e'
    rw [List.mem_cons, h.mem_free, henvs]
    by_cases he : e' = e
    · rw [he, Function.update_self]
      simp
    · rw [Function.update_of_ne he]
      simp [he]
  case pgdir =>
    intro e' he'
    rw [Kernel.Live, henvs] at he'
    rw [henvs]
    by_cases he : e' = e
    · rw [he, Function.update_self] at he'
      simp at he'
    · rw [Function.update_of_ne he] at he' ⊢
      apply h.pgdir e' he'

/-! ### What keeps a kernel well formed -/

/-- Edits of page table entries keep the directories in order. -/
theorem dirInv_edit {f : PteAddr → Word} (h : DirInv s) (hedit : Edit held s s' f) :
  DirInv s'
  := by
  apply h.of_same hedit.quiet.npages hedit.quiet.kernPgdir hedit.kern
  intro e pg he
  rw [hedit.quiet.pgdir] at he
  use he
  apply hedit.upper e

/-- Entries that environments have or had are for environments. -/
theorem UserMaps.of_same (h : UserMaps s)
    (hpde : ∀ (e : Fin NENV) (d : Fin NUPDE), s'.pde e d = s.pde e d ∨ s'.pde e d = 0)
    (hpte : ∀ a, s'.ptes a = s.ptes a ∨ s'.ptes a = 0) :
  UserMaps s'
  := by
  constructor
  case table =>
    intro e d
    obtain heq | heq := hpde e d
    · rw [heq]
      exact h.table e d
    · rw [heq]
      exact tableFlags_zero
  case page =>
    intro a
    obtain heq | heq := hpte a
    · rw [heq]
      exact h.page a
    · rw [heq]
      exact pageFlags_zero

/-- An edit that keeps the page allocator in order keeps the kernel well formed. -/
theorem Wf.edit {held' : Finset Nat} {f : PteAddr → Word} (h : Wf avail held s)
    (hedit : Edit held s s' f) (hf : ∀ a, PageFlags (f a))
    (hmem : ∃ l', MemInv avail held' (fun _ => 0) l' s') :
  Wf avail held' s'
  := by
  constructor
  case mem => apply hmem
  case env =>
    obtain ⟨fl, hfl⟩ := h.env
    use fl
    apply hfl.congr hedit.quiet.envs hedit.quiet.envFreeList
  case dirs => apply dirInv_edit h.dirs hedit
  case user =>
    constructor
    case table => exact fun e d => hedit.pde e d (h.user.table e d)
    case page =>
      rw [hedit.ptes]
      exact hf

/-- Changing a live environment but for its directory and being live keeps a kernel well
formed. -/
theorem Wf.setEnv (h : Wf avail held s) {e : Nat} {env : Env}
    (hlive : (s.envs e).envStatus ≠ .ENV_FREE) (hst : env.envStatus ≠ .ENV_FREE)
    (hpg : env.envPgdir = (s.envs e).envPgdir) :
  Wf avail held (s.setEnv e env)
  := by
  have hpg' : (s.setEnv e env).pgdir e = s.pgdir e := by
    rw [Kernel.setEnv_pgdir, if_neg hst, Kernel.pgdir, if_neg hlive, hpg]
  obtain ⟨hpgdir, hpde, hpte, -⟩ := Kernel.setEnv_views hpg'
  constructor
  case mem =>
    obtain ⟨l, hl⟩ := h.mem
    use l
    apply hl.setEnv hpg'
  case env =>
    obtain ⟨fl, hfl⟩ := h.env
    use fl
    apply hfl.setEnv hlive hst hpg
  case dirs =>
    apply h.dirs.of_same (by rfl) (by rfl)
    · intro d _
      rfl
    · intro e' pg he
      rw [hpgdir] at he
      use he
      intro d _ _
      apply hpde
  case user =>
    apply h.user.of_same
    · exact fun e' d => Or.inl (hpde e' d)
    · exact fun a => Or.inl (hpte a.1 a.2.1 a.2.2)

/-- What the memory management does not look at may change, and pages may be written to that are
no directories or page tables. -/
theorem Wf.sameTables (h : Wf avail held s) (ht : s.SameTables s')
    (hnpages : s'.npages = s.npages) (hpages : s'.pages = s.pages)
    (hlist : s'.pageFreeList = s.pageFreeList) (henvList : s'.envFreeList = s.envFreeList) :
  Wf avail held s'
  := by
  constructor
  case mem =>
    obtain ⟨l, hl⟩ := h.mem
    use l
    apply hl.same_tables ht hpages hlist hnpages
  case env =>
    obtain ⟨fl, hfl⟩ := h.env
    use fl
    apply hfl.congr ht.envs henvList
  case dirs =>
    apply h.dirs.of_same hnpages ht.kernPgdir
    · intro d hd
      apply ht.entry _ (Or.inl rfl) d hd
    · intro e pg he
      rw [ht.pgdir] at he
      use he
      intro d _ hd
      apply ht.pde e hd
  case user =>
    apply h.user.of_same
    · intro e d
      have hd := d.isLt
      simp only [NUPDE] at hd
      exact Or.inl (ht.pde e (by omega))
    · exact fun a => Or.inl (ht.pte a.1 a.2.1 a.2.2.isLt)

/-- Another environment may become the current one. -/
theorem Wf.setCurenv (h : Wf avail held s) (o : Option Nat) :
  Wf avail held { s with curenv := o }
  := h.sameTables (Kernel.SameTables.of_mem rfl rfl rfl) rfl rfl rfl rfl

/-- Creating an environment keeps the kernel well formed. -/
theorem Wf.created {e : Fin NENV} {p : Nat} {type : EnvType} {parentId : Word}
    (h : Wf avail held s) (hc : Created e p type parentId s s')
    (hmem : MemInv avail held (fun _ => 0) l s') (henv : EnvInv fl s') :
  Wf avail held s'
  := by
  constructor
  case mem => use l
  case env => use fl
  case dirs => apply h.dirs.created hc hmem
  case user =>
    apply h.user.of_same
    · intro e' d
      have hd := d.isLt
      by_cases hee : e'.val = e
      · right
        rw [hee]
        exact hc.pde_self hd
      · left
        simp only [NUPDE] at hd
        exact hc.pde_of_ne hee (by omega)
    · exact fun a => Or.inl (congrFun hc.ptes a)

/-- Freeing an environment takes what it maps away. -/
theorem UserMaps.freed {e : Fin NENV} (h : UserMaps s) (hf : Freed held e s s') :
  UserMaps s'
  := by
  have hself : ∀ d, s'.pde e d = 0 := by
    intro d
    rw [Kernel.pde, hf.pgdir_self]
  apply h.of_same
  · intro e' d
    have hd := d.isLt
    simp only [NUPDE] at hd
    by_cases hee : e' = e
    · right
      rw [hee]
      exact hself d
    · left
      exact hf.pde e' hee d (by omega)
  · intro a
    by_cases hee : a.1 = e
    · right
      rw [Kernel.ptes, hee, Kernel.pte, hself, refOf_zero]
    · left
      exact hf.pte a.1 hee a.2.1 a.2.2

/-! ### Freeing environments -/

theorem envFree_follows (e : Nat) :
  (envFree e).Follows (Jos.envFree e)
  := by
  have htable : ∀ pgdir pt pdeno,
      (envFreeTable pgdir pt pdeno).Follows (Jos.envFreeTable pgdir pt pdeno) := by
    intro pgdir pt pdeno
    apply follows_forUp
    intro pteno
    apply follows_bind (follows_refl _)
    intro s
    apply follows_ite
    · exact fun _ => pageRemove_follows _ _
    · exact fun _ => follows_refl _
  have hpde : ∀ pgdir pdeno, (envFreePde pgdir pdeno).Follows (Jos.envFreePde pgdir pdeno) := by
    intro pgdir pdeno
    apply follows_bind (follows_refl _)
    intro s
    apply follows_ite
    · exact fun _ => follows_refl _
    · intro _
      apply follows_bind (follows_refl _)
      intro pt
      apply follows_bind (htable pgdir pt pdeno)
      intro _
      apply follows_bind (follows_refl _)
      intro _
      apply follows_bind (follows_refl _)
      intro pp
      apply pageDecref_follows
  apply follows_bind (follows_refl _)
  intro s
  apply follows_bind (follows_refl _)
  intro pgdir
  apply follows_bind (follows_forUp (hpde pgdir) _ _)
  intro _
  apply follows_bind (follows_refl _)
  intro _
  apply follows_bind (follows_refl _)
  intro pp
  apply follows_bind (pageDecref_follows pp)
  intro _
  apply follows_refl

/-- Freeing a live environment gives up all it refers to and keeps the kernel well formed. -/
theorem envFree_ok (h : Wf avail held s) {e : Fin NENV} (hlive : s.Live e)
    (hfits : Fits avail s) :
  ∃ s', envFree e s = .ok ((), s') ∧ Freed held e s s' ∧ Wf avail held s'
  := by
  obtain ⟨l, hl⟩ := h.mem
  obtain ⟨fl, hfl⟩ := h.env
  obtain ⟨pg, henvpg, hpg⟩ := hfl.live_pgdir hlive
  obtain ⟨s', l', heq, hfreed, hmem⟩ := envFree_gives hl henvpg hpg hfits
  use s', (envFree_follows e).ok heq, hfreed
  constructor
  case mem => use l'
  case env => exact ⟨e.val :: fl, hfl.free hlive hfreed⟩
  case dirs => apply h.dirs.freed hfreed
  case user => exact h.user.freed hfreed

/-! ### Creating environments -/

/-- Copying directory entries does not depend on what is known of the pages. -/
theorem copyKern_pages (p : Nat) (pages : Nat → PageInfo) (n : Nat) :
  ∀ (lo : Nat) (s : Kernel), ∃ s', s'.pages = s.pages
    ∧ Prog.forUp lo n (fun i => modify (fun s : Kernel =>
      s.setEntry p i (s.entry s.kernPgdir i))) s = .ok ((), s')
    ∧ Prog.forUp lo n (fun i => modify (fun s : Kernel =>
      s.setEntry p i (s.entry s.kernPgdir i))) { s with pages := pages }
        = .ok ((), { s' with pages := pages })
  := by
  induction n with
  | zero =>
      intro lo s
      use s, rfl, rfl
      rfl
  | succ n ih =>
      intro lo s
      obtain ⟨s', hpages, h, h'⟩ := ih (lo + 1) (s.setEntry p lo (s.entry s.kernPgdir lo))
      use s', hpages
      rw [forUp, modify_bind, modify_bind]
      exact ⟨h, h'⟩

/-- The other kernel passes over the directory entries below `UTOP`. -/
theorem copyKernPdes_eq (p : Nat) :
  Prog.forUp 0 NPDENTRIES (copyKernPde p) s
    = Prog.forUp NUPDE (NPDENTRIES - NUPDE) (fun i => modify (fun s : Kernel =>
      s.setEntry p i (s.entry s.kernPgdir i))) s
  := by
  have hlow : ∀ n, n ≤ NUPDE → ∀ m, Prog.forUp (NUPDE - n) (n + m) (copyKernPde p) s
      = Prog.forUp NUPDE m (copyKernPde p) s := by
    intro n
    induction n with
    | zero =>
        intro _ m
        rw [Nat.sub_zero, Nat.zero_add]
    | succ n ih =>
        intro hn m
        have hpass : copyKernPde p (NUPDE - (n + 1)) s = .ok ((), s) := by
          rw [copyKernPde, PDX_UTOP, if_neg (by simp only [NUPDE] at hn ⊢; omega)]
          rfl
        rw [show n + 1 + m = n + m + 1 by omega, forUp, bind_of_eq hpass,
          show NUPDE - (n + 1) + 1 = NUPDE - n by omega]
        exact ih (by omega) m
  have hhigh : ∀ n lo, NUPDE ≤ lo → Prog.forUp lo n (copyKernPde p)
      = Prog.forUp lo n (fun i => modify (fun s : Kernel =>
        s.setEntry p i (s.entry s.kernPgdir i))) := by
    intro n
    induction n with
    | zero =>
        intro lo _
        rfl
    | succ n ih =>
        intro lo hlo
        rw [forUp, forUp, ih (lo + 1) (by omega), copyKernPde, PDX_UTOP, if_pos hlo]
  have h := hlow NUPDE (Nat.le_refl _) (NPDENTRIES - NUPDE)
  rw [Nat.sub_self] at h
  rw [← hhigh _ NUPDE (Nat.le_refl _), ← h]
  rfl

theorem envSetupVm_follows (e : Nat) :
  (envSetupVm e).Follows (Jos.envSetupVm e)
  := by
  rw [envSetupVm, Jos.envSetupVm, show ALLOC_ZERO = 1 from rfl, pageAlloc_one]
  apply follows_bind (follows_refl _)
  intro o
  cases o with
  | none => apply follows_refl
  | some p =>
      intro s
      simp only
      by_cases hlt : PGNUM (page2pa p) < s.npages
      · have hkva : page2kva p s = .ok (PGNUM (page2pa p), s) := KADDR_eq hlt
        have hkva' : page2kva p (s.incref p) = .ok (PGNUM (page2pa p), s.incref p) := KADDR_eq hlt
        rw [bind_of_eq (pageIncref_eq p), bind_of_eq hkva, bind_of_eq hkva', modify_bind,
          modify_bind]
        obtain ⟨s', hpages, h, h'⟩ := copyKern_pages (PGNUM (page2pa p)) (s.incref p).pages
          (NPDENTRIES - NUPDE) NUPDE (s.setEnv e { s.envs e with
            envPgdir := some (PGNUM (page2pa p)) })
        rw [bind_of_eq ((copyKernPdes_eq _).trans h), bind_of_eq (pageIncref_eq p), PDX_UTOP]
        have hinc : { s' with pages := (s.incref p).pages } = s'.incref p := by
          simp only [Kernel.incref, Kernel.setPage, hpages]
          rfl
        have hstate : { s.setEnv e { s.envs e with envPgdir := some (PGNUM (page2pa p)) } with
            pages := (s.incref p).pages }
          = (s.incref p).setEnv e { (s.incref p).envs e with
            envPgdir := some (PGNUM (page2pa p)) } := rfl
        rw [hinc, hstate] at h'
        rw [bind_of_eq h']
        constructor
        · exact fun _ heq => heq
        · exact fun _ heq => heq
      · have hpanic : page2kva p s = .error (.panic "KADDR called with invalid pa") := by
          rw [page2kva, KADDR, get_bind, if_pos (by omega)]
          rfl
        simp only [bind, StateT.bind, Except.bind, hpanic]
        constructor
        · intro _ h
          cases h
        · intro _ h
          cases h

/-- Creating an environment fails without an effect if no environment or no page is free. -/
theorem envAlloc_ok (h : MemInv avail held own l s) (he : EnvInv fl s) (parentId : Word) :
  (fl = [] ∧ envAlloc parentId s = .ok (.error (-E_NO_FREE_ENV), s)) ∨
  (fl ≠ [] ∧ l = [] ∧ envAlloc parentId s = .ok (.error (-E_NO_MEM), s)) ∨
  (∃ (e : Fin NENV) (p : Nat) (l' fl' : List Nat) (s' : Kernel), fl = e.val :: fl' ∧ l = p :: l'
    ∧ envAlloc parentId s = .ok (.ok e.val, s')
    ∧ Created e p .ENV_TYPE_USER parentId s s' ∧ MemInv avail held own l' s' ∧ EnvInv fl' s')
  := by
  cases fl with
  | nil =>
      left
      use rfl
      have hhead : s.envFreeList = none := he.chain
      rw [envAlloc, get_bind]
      simp only [hhead]
      rfl
  | cons e fl =>
      right
      have hhead : s.envFreeList = some e := he.chain.1
      obtain ⟨helt, hst⟩ := (he.mem_free e).mp List.mem_cons_self
      cases l with
      | nil =>
          left
          use by simp, rfl
          have hvm : Jos.envSetupVm e s = .ok (-E_NO_MEM, s) := by
            rw [Jos.envSetupVm, bind_of_eq (pageAlloc_eq_none (h.pageFreeList_eq_none.mpr rfl))]
            rfl
          rw [envAlloc, get_bind]
          simp only [hhead]
          rw [bind_of_eq ((envSetupVm_follows e).ok hvm), if_pos (by decide)]
          rfl
      | cons p l =>
          right
          obtain ⟨s', heq, hcreated, hmem⟩ :=
            envAllocType_creates h hhead helt hst .ENV_TYPE_USER parentId
          have hlist : s'.envFreeList = (s.envs e).envLink := by rw [hcreated.quiet]
          use ⟨e, helt⟩, p, l, fl, s', rfl, rfl
          constructor
          · have hfollows : (envAlloc parentId).Follows (Jos.envAlloc parentId) := by
              apply follows_bind (follows_refl _)
              intro s
              cases s.envFreeList with
              | none => apply follows_refl
              | some e =>
                  simp only
                  intro s
                  by_cases hge : e ≥ NENV
                  · rw [if_pos hge]
                    constructor
                    · intro _ h
                      cases h
                    · intro _ h
                      cases h
                  · rw [if_neg hge]
                    exact follows_bind (envSetupVm_follows e) (fun _ => follows_refl _) s
            exact hfollows.ok heq
          · exact ⟨hcreated, hmem, he.alloc (by simp [newEnv]) (by simp [newEnv]) hcreated.envs hlist⟩

/-! ### Entering the kernel -/

/-- The kernel when the environment `e` has run and enters it with the registers `tf`. -/
def entered (s : Kernel) (e : Nat) (tf : Trapframe) : Kernel :=
  { s.setEnv e { s.envs e with envTf := tf } with curenv := some e }

/-- Entering the kernel keeps it well formed. -/
theorem Wf.entered (h : Wf avail held s) {e : Nat} (hlive : s.Live e) (tf : Trapframe) :
  Wf avail held (entered s e tf)
  := by
  have h' : Wf avail held (s.setEnv e { s.envs e with envTf := tf }) := h.setEnv hlive.2 hlive.2 rfl
  exact h'.setCurenv (some e)

theorem fits_entered (hfits : Fits avail s) (e : Nat) (tf : Trapframe) :
  Fits avail (entered s e tf)
  := by
  have hpg : (s.setEnv e { s.envs e with envTf := tf }).pgdir e = s.pgdir e := by
    rw [Kernel.setEnv_pgdir, Kernel.pgdir]
  obtain ⟨-, -, -, hslot⟩ := Kernel.setEnv_views hpg
  have hfits' : Fits avail (s.setEnv e { s.envs e with envTf := tf }) := by
    intro q hq
    rw [Kernel.refs, hslot]
    exact hfits q hq
  exact fits_sameTables (Kernel.SameTables.of_mem rfl rfl rfl) hfits'

end Root

end Jos
