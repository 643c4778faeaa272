import Jos.Root.Calls
import Jos.Root.Region

/-!
# Guest environments

A guest takes three pages: one for its page tables, which is blank, and two for I/O bitmaps.  The
last two are known to nothing but the record of the guest, so that they leave the pages that the
kernel gives out and takes back.  When there are too few pages, those taken are given back.
-/

namespace Jos

namespace Root

open Bytes Prog

variable {avail held : Finset Nat} {own : Nat → Nat} {l fl : List Nat} {s s' : Kernel} {g : Host}

/-! ### Taking a page -/

/-- Two changes outside the paging structures. -/
theorem sameTables_trans {s'' : Kernel} (h : s.SameTables s') (h' : s'.SameTables s'') :
  s.SameTables s''
  := by
  constructor
  case envs => rw [h'.envs, h.envs]
  case kernPgdir => rw [h'.kernPgdir, h.kernPgdir]
  case entry =>
    intro r hr i hi
    rw [h'.entry r ((isTable_sameTables h r).mpr hr) i hi, h.entry r hr i hi]

/-- The kernel after the free page `p` was taken and a reference to it counted. -/
def grabbed (s : Kernel) (p : Nat) : Kernel :=
  (s.taken p).incref p

/-- Taking a page, and counting a reference to it, keeps the page allocator in order. -/
theorem grabbed_memInv {p : Nat} (h : MemInv avail ∅ own (p :: l) s) :
  MemInv avail ∅ (Function.update own p (own p + 1)) l (grabbed s p) ∧ s.SameTables (grabbed s p)
  := by
  have hp := h.refs_free List.mem_cons_self
  have hpl := (List.nodup_cons.mp h.balanced.nodup).1
  have hinc := h.taken.incref hp.1 hpl
  have hheld : (insert p (∅ : Finset Nat)).erase p = ∅ := by simp
  rw [hheld] at hinc
  exact ⟨hinc, sameTables_trans h.taken_sameTables (incref_sameTables p)⟩

/-- What the structure of a page is when it was just taken. -/
theorem taken_pages {p : Nat} (h : MemInv avail ∅ own (p :: l) s) :
  (s.taken p).setPage p {} = s.taken p
  := by
  obtain ⟨href, hlink⟩ := h.taken.held_page (Finset.mem_insert_self p ∅)
  have hpage : (s.taken p).pages p = {} := by
    rw [show (s.taken p).pages p = ⟨((s.taken p).pages p).ppLink, ((s.taken p).pages p).ppRef⟩
      from rfl, href, hlink]
  rw [Kernel.setPage, ← hpage, Function.update_eq_self]

theorem pageAlloc_taken {p : Nat} (h : MemInv avail held own (p :: l) s)
    (ht : s'.pageFreeList = s.pageFreeList) (hn : s'.npages = s.npages) :
  pageAlloc ALLOC_ZERO s' = .ok (some p, s'.taken p)
  := by
  have hp := h.refs_free List.mem_cons_self
  have hlt := h.avail_lt p hp.1
  rw [show ALLOC_ZERO = 1 from rfl, pageAlloc_one]
  apply pageAlloc_eq_some
  · rw [ht]
    exact h.chain.1
  · rw [hn]
    exact hlt
  · rw [hn]
    exact h.npages_le

theorem pageAlloc_empty (h : MemInv avail held own [] s) (ht : s'.pageFreeList = s.pageFreeList) :
  pageAlloc ALLOC_ZERO s' = .ok (none, s')
  := by
  rw [show ALLOC_ZERO = 1 from rfl, pageAlloc_one]
  apply pageAlloc_eq_none
  rw [ht]
  exact h.pageFreeList_eq_none.mpr rfl

/-- Giving back a page that was taken. -/
theorem decref_memInv {p : Nat} (h : MemInv avail ∅ own l s) (hp : own p = 1)
    (hrefs : s.refs p = 0) :
  ∃ l', MemInv avail ∅ (Function.update own p 0) l' (s.decref p) ∧ s.SameTables (s.decref p)
  := by
  obtain ⟨l', hl'⟩ := h.decref (p := p) (by omega) (by omega)
  rw [hp] at hl'
  exact ⟨l', hl', decref_sameTables p⟩

theorem setEnv_decref (s : Kernel) (e p : Nat) (env : Env) :
  (s.setEnv e env).decref p = (s.decref p).setEnv e env
  := by
  by_cases h0 : ((s.pages p).ppRef + 65535) % 65536 = 0
  · rw [decref_eq_freed h0, decref_eq_freed (s := s.setEnv e env) h0]
    rfl
  · rw [decref_eq_setPage rfl h0, decref_eq_setPage (s := s.setEnv e env) rfl h0]
    rfl

/-- A page that only the running code refers to may be kept from the page allocator for good. -/
theorem memInv_dismiss {a : Nat} (h : MemInv avail held own l s) (ha : 0 < own a)
    (hheld : a ∉ held) (hrefs : ∀ x, s.slotRef x ≠ some a) :
  MemInv (avail.erase a) held (Function.update own a 0) l s
  := by
  have hal : a ∉ l := by
    intro hal
    obtain ⟨-, -, -, h0⟩ := h.refs_free hal
    omega
  have htotal : ∀ p, p ≠ a → (s.store l held (Function.update own a 0)).total slots p
      = (s.store l held own).total slots p := by
    intro p hp
    simp only [Store.total, Kernel.store, Function.update_of_ne hp]
  constructor
  case chain => exact h.chain
  case unlinked => exact fun p hp hpl => h.unlinked p (Finset.mem_of_mem_erase hp) hpl
  case balanced =>
    constructor
    case counted =>
      intro p hp
      obtain ⟨hpa, hp⟩ := Finset.mem_erase.mp hp
      rw [htotal p hpa]
      exact h.balanced.counted p hp
    case nodup => exact h.balanced.nodup
    case mem_free =>
      intro p
      by_cases hpa : p = a
      · subst hpa
        constructor
        · exact fun hpl => (hal hpl).elim
        · exact fun hp => (Finset.notMem_erase p avail hp.1).elim
      · rw [htotal p hpa]
        have hm := h.balanced.mem_free p
        simp only [Finset.mem_erase]
        constructor
        · intro hpl
          obtain ⟨h1, h2, h3⟩ := hm.mp hpl
          exact ⟨⟨hpa, h1⟩, h2, h3⟩
        · exact fun hp => hm.mpr ⟨hp.1.2, hp.2⟩
    case held_avail =>
      intro p hp
      apply Finset.mem_erase.mpr
      exact ⟨fun hpa => hheld (hpa ▸ hp), h.balanced.held_avail p hp⟩
    case held_total =>
      intro p hp
      rw [htotal p (fun hpa => hheld (hpa ▸ hp))]
      exact h.balanced.held_total p hp
    case mem_slots => exact h.balanced.mem_slots
    case ref_avail =>
      intro x p hx
      apply Finset.mem_erase.mpr
      exact ⟨fun hpa => hrefs x (hpa ▸ hx), h.balanced.ref_avail x p hx⟩
    case own_avail =>
      intro p hp
      simp only [Kernel.store] at hp
      by_cases hpa : p = a
      · rw [hpa, Function.update_self] at hp
        omega
      · rw [Function.update_of_ne hpa] at hp
        exact Finset.mem_erase.mpr ⟨hpa, h.balanced.own_avail p hp⟩
    case owned => exact h.balanced.owned
  case avail_lt => exact fun p hp => h.avail_lt p (Finset.mem_of_mem_erase hp)
  case npages_le => exact h.npages_le
  case kern_notMem => exact fun hk => h.kern_notMem (Finset.mem_of_mem_erase hk)

/-! ### Views of the paging structures -/

/-- The paging structures look the same when the environments have the same directories, and the
words of the paging structures are the same. -/
theorem views_of_sameTables (ht : s.SameTables { s' with envs := s.envs })
    (hpg : ∀ e, s'.pgdir e = s.pgdir e) :
  (∀ (e : Fin NENV) d, d < 1024 → s'.pde e d = s.pde e d) ∧ s'.ptes = s.ptes
    ∧ s'.slotRef = s.slotRef
  := by
  have hpde : ∀ e d, s'.pde e d = ({ s' with envs := s.envs } : Kernel).pde e d := by
    intro e d
    rw [Kernel.pde, Kernel.pde, hpg]
    rfl
  have hpte : ∀ e d t, s'.pte e d t = ({ s' with envs := s.envs } : Kernel).pte e d t := by
    intro e d t
    rw [Kernel.pte, Kernel.pte, hpde]
    rfl
  refine ⟨fun e d hd => (hpde e d).trans (ht.pde e hd), ?_, ?_⟩
  · funext a
    exact (hpte a.1 a.2.1 a.2.2).trans (ht.pte a.1 a.2.1 a.2.2.isLt)
  · rw [← ht.slotRef]
    funext x
    cases x with
    | dir e => exact hpg e
    | table e d => exact congrArg refOf (hpde e d)
    | page e d t => exact congrArg refOf (hpte e d t)
    | kern d => rfl

/-- A kernel that looks the same is well formed too. -/
theorem Wf.of_views {avail' : Finset Nat} (h : Wf avail held s)
    (ht : s.SameTables { s' with envs := s.envs }) (hpg : ∀ e, s'.pgdir e = s.pgdir e)
    (hn : s'.npages = s.npages) (hmem : ∃ l, MemInv avail' held (fun _ => 0) l s')
    (henv : ∃ fl, EnvInv fl s') :
  Wf avail' held s'
  := by
  obtain ⟨hpde, hptes, -⟩ := views_of_sameTables ht hpg
  constructor
  case mem => exact hmem
  case env => exact henv
  case dirs =>
    apply h.dirs.of_same hn ht.kernPgdir (ht.entry _ (Or.inl rfl))
    intro e pg he
    rw [hpg] at he
    exact ⟨he, fun d _ hd => hpde e d hd⟩
  case user =>
    apply h.user.of_same
    · intro e d
      have hd := d.isLt
      simp only [NUPDE] at hd
      exact Or.inl (hpde e d (by omega))
    · exact fun a => Or.inl (congrFun hptes a)

/-- A free environment may remember any directory. -/
theorem EnvInv.setFree (h : EnvInv fl s) {e : Nat} (hfree : (s.envs e).envStatus = .ENV_FREE)
    (pg : Option Nat) :
  EnvInv fl (s.setEnv e { s.envs e with envPgdir := pg })
  := by
  have hsame : ∀ e', ((s.setEnv e { s.envs e with envPgdir := pg }).envs e').envLink
        = (s.envs e').envLink
      ∧ ((s.setEnv e { s.envs e with envPgdir := pg }).envs e').envStatus
        = (s.envs e').envStatus := by
    intro e'
    simp only [Kernel.setEnv]
    by_cases he : e' = e
    · rw [he, Function.update_self]
      exact ⟨rfl, rfl⟩
    · rw [Function.update_of_ne he]
      exact ⟨rfl, rfl⟩
  constructor
  case chain => exact h.chain.congr (fun e' _ => (hsame e').1)
  case nodup => exact h.nodup
  case mem_free =>
    intro e'
    rw [(hsame e').2]
    exact h.mem_free e'
  case pgdir =>
    intro e' hlive
    rw [Kernel.Live, (hsame e').2] at hlive
    have hne : e' ≠ e := by
      rintro rfl
      exact hlive.2 hfree
    simp only [Kernel.setEnv, Function.update_of_ne hne]
    exact h.pgdir e' hlive

/-! ### Making a guest -/

/-- From `s` to `s'` no guest was made, and what had been taken was given back. -/
structure GuestFailed (s s' : Kernel) : Prop where
  quiet : ∃ (e : Nat) (pg : Option Nat), (s.envs e).envStatus = .ENV_FREE ∧ s' = { s with
    mem := s'.mem
    pages := s'.pages
    pageFreeList := s'.pageFreeList
    envs := Function.update s.envs e { s.envs e with envPgdir := pg } }
  sameTables : s.SameTables { s' with envs := s.envs }

/-- A free environment after it became a guest with the directory `p`. -/
def newGuest (old : Env) (e p : Nat) (parentId entryloc : Word) : Env :=
  { old with
    envPgdir := some p
    envId := nextEnvId e old.envId
    envParentId := parentId
    envType := .ENV_TYPE_GUEST
    envStatus := .ENV_NOT_RUNNABLE
    envRuns := 0
    envTf := { tfEip := entryloc }
    envPgfaultUpcall := 0
    envIpcRecving := false }

/-- From `s` to `s'` the free environment `e` became a guest with the blank directory `p` and the
I/O bitmaps `a` and `b`. -/
structure GuestMade (e p a b : Nat) (parentId entryloc : Word) (s s' : Kernel) : Prop where
  free : (s.envs e).envStatus = .ENV_FREE
  taken : s.OnFreeList p ∧ s.OnFreeList a ∧ s.OnFreeList b
  distinct : p ≠ a ∧ p ≠ b ∧ a ≠ b
  quiet : s' = { s with
    mem := s'.mem
    pages := s'.pages
    pageFreeList := s'.pageFreeList
    envs := Function.update s.envs e (newGuest (s.envs e) e p parentId entryloc)
    envFreeList := (s.envs e).envLink }
  blank : ∀ d < 1024, s'.entry p d = 0
  sameTables : s.SameTables { s' with envs := s.envs }

/-! ### Running -/

theorem onKernel_ok {α : Type} {m : Prog Kernel α} {a : α} (h : m g.kernel = .ok (a, s')) :
  onKernel m g = .ok (a, { g with kernel := s' })
  := by rw [onKernel, h]

/-- The state in which the directory of a free environment was taken. -/
def withDir (s : Kernel) (e p : Nat) : Kernel :=
  (grabbed s p).setEnv e { s.envs e with envPgdir := some p }

/-- There are an environment and pages for a guest. -/
def GuestRoom (s : Kernel) : Prop :=
  s.envFreeList ≠ none ∧ HasFree 3 s

theorem setEnv_idem (s : Kernel) (e : Nat) (env env' : Env) :
  (s.setEnv e env).setEnv e env' = s.setEnv e env'
  := by simp only [Kernel.setEnv, Function.update_idem]

/-- The page a page structure stands for. -/
theorem page2kva_ok {p : Nat} (h : MemInv avail held own l s) (hp : p ∈ avail)
    (hn : s'.npages = s.npages) :
  page2kva p s' = .ok (p, s')
  := by
  have hlt := h.avail_lt p hp
  have hle := h.npages_le
  have hnum : PGNUM (page2pa p) = p := PGNUM_page2pa (by omega)
  have hbelow : PGNUM (page2pa p) < s'.npages := by omega
  have hk := KADDR_eq hbelow
  rw [hnum] at hk
  exact hk

/-- Giving back a page while the environment `e` remembers it. -/
theorem pageDecref_ok {p e : Nat} {env : Env} (h : MemInv avail held own l s) (hp : p ∈ avail)
    (hpl : p ∉ l) :
  pageDecref p (s.setEnv e env) = .ok ((), (s.decref p).setEnv e env)
  := by
  have hlink : ((s.setEnv e env).pages p).ppLink = none := h.unlinked p hp hpl
  rw [(pageDecref_follows p).ok (pageDecref_eq hlink), setEnv_decref]

theorem pageIncref_taken (s : Kernel) (p : Nat) :
  pageIncref p (s.taken p) = .ok ((), grabbed s p)
  := rfl

theorem grabbed_npages (s : Kernel) (p : Nat) :
  (grabbed s p).npages = s.npages
  := rfl

theorem withDir_npages (s : Kernel) (e p : Nat) :
  (withDir s e p).npages = s.npages
  := rfl

/-- After the pages taken are given back, the kernel is as it was but for what the environment
remembers. -/
theorem guestFailed_of {e : Nat} {pg : Option Nat} {v : Kernel} (h : Wf avail ∅ s)
    (hfree : (s.envs e).envStatus = .ENV_FREE) (hv : MemInv avail ∅ (fun _ => 0) l v)
    (hq : v = { s with mem := v.mem, pages := v.pages, pageFreeList := v.pageFreeList })
    (ht : s.SameTables v) :
  GuestFailed s (v.setEnv e { s.envs e with envPgdir := pg })
    ∧ Wf avail ∅ (v.setEnv e { s.envs e with envPgdir := pg })
  := by
  have hvenvs : v.envs = s.envs := ht.envs
  have ht' : s.SameTables
      { (v.setEnv e { s.envs e with envPgdir := pg }) with envs := s.envs } :=
    ⟨rfl, ht.kernPgdir, ht.entry⟩
  have hpg : ∀ e', (v.setEnv e { s.envs e with envPgdir := pg }).pgdir e' = s.pgdir e' := by
    intro e'
    rw [Kernel.pgdir, Kernel.pgdir, Kernel.setEnv, hvenvs]
    by_cases he : e' = e
    · rw [he]
      simp only [Function.update_self, hfree, if_true]
    · simp only [Function.update_of_ne he]
  constructor
  · constructor
    case quiet =>
      use e, pg, hfree
      rw [Kernel.setEnv, hvenvs, hq]
    case sameTables => exact ht'
  · apply h.of_views ht' hpg
    · rw [hq]
      rfl
    · use l
      apply hv.setEnv
      rw [hpg, ht.pgdir]
    · obtain ⟨fl, hfl⟩ := h.env
      use fl
      have hset := hfl.setFree hfree pg
      apply hset.congr
      · simp only [Kernel.setEnv, hvenvs]
      · rw [hq]
        rfl

/-- What `env_guest_alloc` does once the environment `e` has the directory `p`. -/
def guestBitmaps (parentId : Word) (e p : Nat) : Prog Host (Except Word Nat) := do
  match ← onKernel (pageAlloc ALLOC_ZERO) with
  | none =>
      onKernel (pageDecref p)
      pure (.error (-E_NO_MEM))
  | some a =>
      onKernel (pageIncref a)
      let kva ← onKernel (page2kva a)
      modify (fun g => g.setInfo e { g.extrainfo e with ioBmapA := some kva })
      match ← onKernel (pageAlloc ALLOC_ZERO) with
      | none =>
          onKernel (pageDecref p)
          onKernel (pageDecref a)
          pure (.error (-E_NO_MEM))
      | some b =>
          onKernel (pageIncref b)
          let kva ← onKernel (page2kva b)
          modify (fun g => g.setInfo e { g.extrainfo e with ioBmapB := some kva })
          onKernel (modify (fun s => s.setEnv e { s.envs e with
            envId := nextEnvId e (s.envs e).envId
            envParentId := parentId
            envType := .ENV_TYPE_GUEST
            envStatus := .ENV_RUNNABLE
            envRuns := 0
            envTf := {}
            envPgfaultUpcall := 0
            envIpcRecving := false }))
          onKernel (modify (fun s => { s with envFreeList := (s.envs e).envLink }))
          pure (.ok e)

section Make

variable {e p : Nat} {l1 : List Nat} (hl : MemInv avail ∅ (fun _ => 0) (p :: l1) g.kernel)
include hl

/-- The first page is taken for the directory. -/
theorem envGuestAlloc_dir (hhead : g.kernel.envFreeList = some e) (parentId : Word) :
  envGuestAlloc parentId g
    = guestBitmaps parentId e p { g.setInfo e {} with kernel := withDir g.kernel e p }
  := by
  have hp := hl.refs_free List.mem_cons_self
  have hkva : page2kva p (grabbed g.kernel p) = .ok (p, grabbed g.kernel p) :=
    page2kva_ok hl hp.1 rfl
  have halloc : onKernel (pageAlloc ALLOC_ZERO) (g.setInfo e {})
      = .ok (some p, { g.setInfo e {} with kernel := g.kernel.taken p }) :=
    onKernel_ok (g := g.setInfo e {}) (pageAlloc_taken hl rfl rfl)
  have hset : onKernel (modify (fun s => s.setPage p {}))
        { g.setInfo e {} with kernel := g.kernel.taken p }
      = .ok ((), { g.setInfo e {} with kernel := g.kernel.taken p }) := by
    have hmodify : (modify (fun s : Kernel => s.setPage p {}) : Prog Kernel Unit)
        (g.kernel.taken p) = .ok ((), (g.kernel.taken p).setPage p {}) := rfl
    have hrun := onKernel_ok (g := { g.setInfo e {} with kernel := g.kernel.taken p }) hmodify
    rw [taken_pages hl] at hrun
    exact hrun
  have hinc : onKernel (pageIncref p) { g.setInfo e {} with kernel := g.kernel.taken p }
      = .ok ((), { g.setInfo e {} with kernel := grabbed g.kernel p }) :=
    onKernel_ok (g := { g.setInfo e {} with kernel := g.kernel.taken p }) rfl
  have hkva' : onKernel (page2kva p) { g.setInfo e {} with kernel := grabbed g.kernel p }
      = .ok (p, { g.setInfo e {} with kernel := grabbed g.kernel p }) :=
    onKernel_ok (g := { g.setInfo e {} with kernel := grabbed g.kernel p }) hkva
  rw [envGuestAlloc, get_bind]
  simp only [hhead]
  rw [modify_bind, bind_of_eq halloc]
  simp only
  rw [bind_of_eq hset, bind_of_eq hinc, bind_of_eq hkva']
  rfl

/-- The directory is given back when no other page is free. -/
theorem guestBitmaps_one (h : Wf avail ∅ g.kernel) (hl1 : l1 = [])
    (hfree : (g.kernel.envs e).envStatus = .ENV_FREE) (parentId : Word) (info : VMInfo) :
  ∃ g', guestBitmaps parentId e p { g.setInfo e info with kernel := withDir g.kernel e p }
      = .ok (.error (-E_NO_MEM), g')
    ∧ GuestFailed g.kernel g'.kernel ∧ Wf avail ∅ g'.kernel
  := by
  subst hl1
  have hp := hl.refs_free List.mem_cons_self
  obtain ⟨hm1, ht1⟩ := grabbed_memInv hl
  rw [Nat.zero_add] at hm1
  obtain ⟨l', hm2, ht2⟩ := decref_memInv (p := p) hm1 (by rw [Function.update_self]) (by
    rw [refs_sameTables ht1]
    exact hp.2.2.1)
  have hown : Function.update (Function.update (fun _ => 0) p 1) p 0 = fun _ : Nat => 0 := by
    rw [Function.update_idem, Function.update_eq_self]
  rw [hown] at hm2
  have hnone : pageAlloc ALLOC_ZERO (withDir g.kernel e p) = .ok (none, withDir g.kernel e p) :=
    pageAlloc_empty hm1 rfl
  have hdec : pageDecref p (withDir g.kernel e p)
      = .ok ((), ((grabbed g.kernel p).decref p).setEnv e
        { g.kernel.envs e with envPgdir := some p }) :=
    pageDecref_ok hm1 hp.1 (by simp)
  obtain ⟨hfailed, hwf⟩ := guestFailed_of h hfree hm2 (by
    rw [(decref_quiet p).1]
    rfl) (sameTables_trans ht1 ht2)
  refine ⟨{ g.setInfo e info with
    kernel := (((grabbed g.kernel p).decref p).setEnv e
      { g.kernel.envs e with envPgdir := some p }) }, ?_, hfailed, hwf⟩
  rw [guestBitmaps, bind_of_eq (onKernel_ok (g := { g.setInfo e info with
    kernel := withDir g.kernel e p }) hnone)]
  simp only
  rw [bind_of_eq (onKernel_ok (g := { g.setInfo e info with
    kernel := withDir g.kernel e p }) hdec)]
  rfl

/-- The first bitmap is taken. -/
theorem guestBitmaps_first {a : Nat} {l2 : List Nat} (hl1 : l1 = a :: l2) (parentId : Word)
    (info : VMInfo) :
  guestBitmaps parentId e p { g.setInfo e info with kernel := withDir g.kernel e p } = (do
    match ← onKernel (pageAlloc ALLOC_ZERO) with
    | none =>
        onKernel (pageDecref p)
        onKernel (pageDecref a)
        pure (.error (-E_NO_MEM))
    | some b =>
        onKernel (pageIncref b)
        let kva ← onKernel (page2kva b)
        modify (fun g => g.setInfo e { g.extrainfo e with ioBmapB := some kva })
        onKernel (modify (fun s => s.setEnv e { s.envs e with
          envId := nextEnvId e (s.envs e).envId
          envParentId := parentId
          envType := .ENV_TYPE_GUEST
          envStatus := .ENV_RUNNABLE
          envRuns := 0
          envTf := {}
          envPgfaultUpcall := 0
          envIpcRecving := false }))
        onKernel (modify (fun s => { s with envFreeList := (s.envs e).envLink }))
        pure (.ok e) : Prog Host (Except Word Nat))
      { g.setInfo e { info with ioBmapA := some a } with
        kernel := grabbed (withDir g.kernel e p) a }
  := by
  subst hl1
  obtain ⟨hm1, -⟩ := grabbed_memInv hl
  have ha := hm1.refs_free List.mem_cons_self
  have halloc : pageAlloc ALLOC_ZERO (withDir g.kernel e p)
      = .ok (some a, (withDir g.kernel e p).taken a) := pageAlloc_taken hm1 rfl rfl
  have hkva : page2kva a (grabbed (withDir g.kernel e p) a)
      = .ok (a, grabbed (withDir g.kernel e p) a) :=
    page2kva_ok hm1 ha.1 (by rw [grabbed_npages, grabbed_npages, withDir_npages])
  rw [guestBitmaps, bind_of_eq (onKernel_ok (g := { g.setInfo e info with
    kernel := withDir g.kernel e p }) halloc)]
  simp only
  rw [bind_of_eq (onKernel_ok (g := { g.setInfo e info with
      kernel := (withDir g.kernel e p).taken a }) (pageIncref_taken _ a)),
    bind_of_eq (onKernel_ok (g := { g.setInfo e info with
      kernel := grabbed (withDir g.kernel e p) a }) hkva), modify_bind]
  simp only [Host.setInfo, Function.update_self, Function.update_idem]

/-- The directory and the bitmap are given back when no other page is free. -/
theorem guestBitmaps_two {a : Nat} (h : Wf avail ∅ g.kernel) (hl1 : l1 = [a])
    (hfree : (g.kernel.envs e).envStatus = .ENV_FREE) (parentId : Word) (info : VMInfo) :
  ∃ g', guestBitmaps parentId e p { g.setInfo e info with kernel := withDir g.kernel e p }
      = .ok (.error (-E_NO_MEM), g')
    ∧ GuestFailed g.kernel g'.kernel ∧ Wf avail ∅ g'.kernel
  := by
  rw [guestBitmaps_first hl hl1]
  subst hl1
  have hp := hl.refs_free List.mem_cons_self
  have hne : p ≠ a := by
    rintro rfl
    exact (List.nodup_cons.mp hl.balanced.nodup).1 List.mem_cons_self
  obtain ⟨hm1, ht1⟩ := grabbed_memInv hl
  have ha := hm1.refs_free List.mem_cons_self
  obtain ⟨hm2, ht2⟩ := grabbed_memInv hm1
  rw [ha.2.2.2, Nat.zero_add] at hm2
  have ht := sameTables_trans ht1 ht2
  obtain ⟨l3, hm3, ht3⟩ := decref_memInv (p := p) hm2
    (by rw [Function.update_of_ne hne, Function.update_self])
    (by
      rw [refs_sameTables ht]
      exact hp.2.2.1)
  have hap : a ∈ avail ∧ a ∉ l3 := by
    use ha.1
    intro hal
    have h0 := (hm3.refs_free hal).2.2.2
    rw [Function.update_of_ne hne.symm, Function.update_self] at h0
    cases h0
  obtain ⟨l4, hm4, ht4⟩ := decref_memInv (p := a) hm3
    (by rw [Function.update_of_ne hne.symm, Function.update_self])
    (by
      rw [refs_sameTables (sameTables_trans ht2 ht3)]
      exact ha.2.2.1)
  have hown : Function.update (Function.update (Function.update (Function.update
      (fun _ => 0) p (0 + 1)) a 1) p 0) a 0 = fun _ : Nat => 0 := by
    funext q
    by_cases hqa : q = a
    · rw [hqa, Function.update_self]
    · rw [Function.update_of_ne hqa]
      by_cases hqp : q = p
      · rw [hqp, Function.update_self]
      · rw [Function.update_of_ne hqp, Function.update_of_ne hqa, Function.update_of_ne hqp]
  rw [hown] at hm4
  have hnone : pageAlloc ALLOC_ZERO (grabbed (withDir g.kernel e p) a)
      = .ok (none, grabbed (withDir g.kernel e p) a) := pageAlloc_empty hm2 rfl
  have hdec : pageDecref p (grabbed (withDir g.kernel e p) a)
      = .ok ((), ((grabbed (grabbed g.kernel p) a).decref p).setEnv e
        { g.kernel.envs e with envPgdir := some p }) :=
    pageDecref_ok hm2 hp.1 (by simp)
  have hdec' : pageDecref a (((grabbed (grabbed g.kernel p) a).decref p).setEnv e
        { g.kernel.envs e with envPgdir := some p })
      = .ok ((), (((grabbed (grabbed g.kernel p) a).decref p).decref a).setEnv e
        { g.kernel.envs e with envPgdir := some p }) :=
    pageDecref_ok hm3 hap.1 hap.2
  obtain ⟨hfailed, hwf⟩ := guestFailed_of h hfree hm4 (by
    rw [(decref_quiet a).1, (decref_quiet p).1]
    rfl) (sameTables_trans ht (sameTables_trans ht3 ht4))
  refine ⟨{ g.setInfo e { info with ioBmapA := some a } with
    kernel := (((grabbed (grabbed g.kernel p) a).decref p).decref a).setEnv e
      { g.kernel.envs e with envPgdir := some p } }, ?_, hfailed, hwf⟩
  rw [bind_of_eq (onKernel_ok (g := { g.setInfo e { info with ioBmapA := some a } with
    kernel := grabbed (withDir g.kernel e p) a }) hnone)]
  simp only
  rw [bind_of_eq (onKernel_ok (g := { g.setInfo e { info with ioBmapA := some a } with
      kernel := grabbed (withDir g.kernel e p) a }) hdec),
    bind_of_eq (onKernel_ok (g := { g.setInfo e { info with ioBmapA := some a } with
      kernel := ((grabbed (grabbed g.kernel p) a).decref p).setEnv e
        { g.kernel.envs e with envPgdir := some p } }) hdec')]
  rfl

/-- The three pages of a guest. -/
def bitmapsTaken (s : Kernel) (p a b : Nat) : Kernel :=
  grabbed (grabbed (grabbed s p) a) b

/-- The guest is made when there are three free pages. -/
theorem guestBitmaps_three {a b : Nat} {l3 : List Nat} (hl1 : l1 = a :: b :: l3) (parentId : Word)
    (info : VMInfo) :
  guestBitmaps parentId e p { g.setInfo e info with kernel := withDir g.kernel e p }
    = .ok (.ok e, { g.setInfo e { info with ioBmapA := some a, ioBmapB := some b } with
      kernel := { (bitmapsTaken g.kernel p a b).setEnv e { g.kernel.envs e with
        envPgdir := some p
        envId := nextEnvId e (g.kernel.envs e).envId
        envParentId := parentId
        envType := .ENV_TYPE_GUEST
        envStatus := .ENV_RUNNABLE
        envRuns := 0
        envTf := {}
        envPgfaultUpcall := 0
        envIpcRecving := false } with envFreeList := (g.kernel.envs e).envLink } })
  := by
  rw [guestBitmaps_first hl hl1]
  subst hl1
  obtain ⟨hm1, -⟩ := grabbed_memInv hl
  obtain ⟨hm2, -⟩ := grabbed_memInv hm1
  have hb := hm2.refs_free List.mem_cons_self
  have halloc : pageAlloc ALLOC_ZERO (grabbed (withDir g.kernel e p) a)
      = .ok (some b, (grabbed (withDir g.kernel e p) a).taken b) := pageAlloc_taken hm2 rfl rfl
  have hkva : page2kva b (grabbed (grabbed (withDir g.kernel e p) a) b)
      = .ok (b, grabbed (grabbed (withDir g.kernel e p) a) b) :=
    page2kva_ok hm2 hb.1 (by
      rw [grabbed_npages, grabbed_npages, grabbed_npages, grabbed_npages, withDir_npages])
  have hstate : grabbed (grabbed (withDir g.kernel e p) a) b
      = (bitmapsTaken g.kernel p a b).setEnv e { g.kernel.envs e with envPgdir := some p } := rfl
  rw [bind_of_eq (onKernel_ok (g := { g.setInfo e { info with ioBmapA := some a } with
    kernel := grabbed (withDir g.kernel e p) a }) halloc)]
  simp only
  rw [bind_of_eq (onKernel_ok (g := { g.setInfo e { info with ioBmapA := some a } with
      kernel := (grabbed (withDir g.kernel e p) a).taken b }) (pageIncref_taken _ b)),
    bind_of_eq (onKernel_ok (g := { g.setInfo e { info with ioBmapA := some a } with
      kernel := grabbed (grabbed (withDir g.kernel e p) a) b }) hkva), modify_bind, hstate]
  simp only [Host.setInfo, Function.update_self, Function.update_idem]
  rw [bind_of_eq (onKernel_ok (m := modify _) (a := ()) rfl),
    bind_of_eq (onKernel_ok (m := modify _) (a := ()) rfl)]
  simp only [Kernel.setEnv_envs_self, setEnv_idem]
  rfl

end Make

/-! ### The guest is in order -/

namespace GuestMade

variable {e p a b : Nat} {parentId entryloc : Word} (h : GuestMade e p a b parentId entryloc s s')
include h

theorem envs :
  s'.envs = Function.update s.envs e (newGuest (s.envs e) e p parentId entryloc)
  := by rw [h.quiet]

theorem pgdir_self :
  s'.pgdir e = some p
  := by
  rw [Kernel.pgdir, h.envs, Function.update_self]
  rfl

theorem pgdir_of_ne {e' : Nat} (he : e' ≠ e) :
  s'.pgdir e' = s.pgdir e'
  := by
  rw [Kernel.pgdir, h.envs, Function.update_of_ne he]
  rfl

theorem pgdir_old :
  s.pgdir e = none
  := by
  rw [Kernel.pgdir, if_pos h.free]

theorem pde_self {d : Nat} (hd : d < 1024) :
  s'.pde e d = 0
  := by
  rw [Kernel.pde, h.pgdir_self]
  exact h.blank d hd

theorem pde_of_ne {e' : Fin NENV} (he : e'.val ≠ e) {d : Nat} (hd : d < 1024) :
  s'.pde e' d = s.pde e' d
  := by
  rw [← h.sameTables.pde e' hd, Kernel.pde, Kernel.pde, h.pgdir_of_ne he]
  rfl

/-- Making a guest edits no page table entry. -/
theorem ptes :
  s'.ptes = s.ptes
  := by
  funext ⟨e', d, t⟩
  have hd := d.isLt
  simp only [NUPDE] at hd
  simp only [Kernel.ptes]
  by_cases he : e'.val = e
  · rw [Kernel.pte, Kernel.pte, he, h.pde_self (by omega), Kernel.pde, h.pgdir_old, refOf_zero]
  · rw [← h.sameTables.pte e' d t.isLt, Kernel.pte, Kernel.pte, Kernel.pde, Kernel.pde,
      h.pgdir_of_ne he]
    rfl

end GuestMade

/-- What the slots refer to after a guest was made. -/
theorem GuestMade.slotRef {e : Fin NENV} {p a b : Nat} {parentId entryloc : Word}
    (h : GuestMade e p a b parentId entryloc s s') :
  s'.slotRef = Function.update s.slotRef (.dir e) (some p)
  := by
  have hsame := h.sameTables
  have heq : s'.slotRef = (Kernel.setEnv { s' with envs := s.envs } e
      (newGuest (s.envs e) e p parentId entryloc)).slotRef := by
    have ht : (Kernel.setEnv { s' with envs := s.envs } e
        (newGuest (s.envs e) e p parentId entryloc)).SameTables s' :=
      Kernel.SameTables.of_mem h.envs rfl rfl
    apply ht.slotRef
  have hpg : (Kernel.setEnv { s' with envs := s.envs } e
      (newGuest (s.envs e) e p parentId entryloc)).pgdir e = some p := by
    rw [Kernel.setEnv_pgdir, if_neg (by simp [newGuest])]
    rfl
  rw [heq, Kernel.setEnv_slotRef, hsame.slotRef, hpg]
  · intro d
    have hd := d.isLt
    simp only [NUPDE] at hd
    rw [hsame.pde e (by omega), Kernel.pde, h.pgdir_old, refOf_zero]
  · intro d
    have hd := d.isLt
    simp only [NUPDE] at hd
    rw [Kernel.pde, hpg]
    change refOf (s'.entry p d) = none
    rw [h.blank d (by omega), refOf_zero]

/-- A new guest keeps the kernel well formed. -/
theorem Wf.guestMade {avail' : Finset Nat} {e : Fin NENV} {p a b : Nat} {parentId entryloc : Word}
    (h : Wf avail held s) (hg : GuestMade e p a b parentId entryloc s s')
    (hmem : MemInv avail' held (fun _ => 0) l s') (henv : EnvInv fl s') :
  Wf avail' held s'
  := by
  have hn : s'.npages = s.npages := by rw [hg.quiet]
  have hkern : ∀ d < 1024, s'.entry s.kernPgdir d = s.entry s.kernPgdir d :=
    hg.sameTables.entry _ (Or.inl rfl)
  constructor
  case mem => use l
  case env => use fl
  case dirs =>
    constructor
    case kern =>
      intro d hd hd'
      rw [show s'.kernPgdir = s.kernPgdir from hg.sameTables.kernPgdir, hn, hkern d hd']
      exact h.dirs.kern d hd hd'
    case upper =>
      intro e' pg he d hd hd'
      rw [hn]
      by_cases hee : e' = e
      · intro q hq
        rw [hee, hg.pde_self hd', refOf_zero] at hq
        cases hq
      · have hee' : e'.val ≠ e := fun h => hee (Fin.ext h)
        rw [hg.pde_of_ne hee' hd']
        rw [hg.pgdir_of_ne hee'] at he
        exact h.dirs.upper e' pg he d hd hd'
  case user =>
    apply h.user.of_same
    · intro e' d
      have hd := d.isLt
      simp only [NUPDE] at hd
      by_cases hee : e'.val = e
      · right
        rw [hee]
        exact hg.pde_self (by omega)
      · left
        exact hg.pde_of_ne hee (by omega)
    · exact fun x => Or.inl (congrFun hg.ptes x)

/-- The words of a page that was grabbed are zero. -/
theorem entry_grabbed (s : Kernel) (p : Nat) {i : Nat} (hi : i < 1024) :
  (grabbed s p).entry p i = 0
  := entry_taken p hi

theorem entry_grabbed_of_ne (s : Kernel) {p q i : Nat} (hq : q ≠ p) (hi : i < 1024) :
  (grabbed s p).entry q i = s.entry q i
  := Kernel.entry_zeroPage_of_ne _ hi hq

/-- The kernel with a new guest. -/
def withGuest (s : Kernel) (e p a b : Nat) (parentId entryloc : Word) : Kernel :=
  { (bitmapsTaken s p a b).setEnv e (newGuest (s.envs e) e p parentId entryloc) with
    envFreeList := (s.envs e).envLink }

/-- A new guest is in order, and its bitmaps are kept from the page allocator. -/
theorem withGuest_ok {e : Fin NENV} {p a b : Nat} {l3 : List Nat} (h : Wf avail ∅ s)
    (hl : MemInv avail ∅ (fun _ => 0) (p :: a :: b :: l3) s) (hfl : EnvInv (e.val :: fl) s)
    (parentId entryloc : Word) :
  GuestMade e p a b parentId entryloc s (withGuest s e p a b parentId entryloc)
    ∧ Wf ((avail.erase a).erase b) ∅ (withGuest s e p a b parentId entryloc)
  := by
  obtain ⟨s', hs'⟩ : ∃ s', s' = withGuest s e p a b parentId entryloc := ⟨_, rfl⟩
  obtain ⟨u, hu⟩ : ∃ u, u = bitmapsTaken s p a b := ⟨_, rfl⟩
  have hfree : (s.envs e).envStatus = .ENV_FREE := ((hfl.mem_free e).mp List.mem_cons_self).2
  have hnd : (p :: a :: b :: l3).Nodup := hl.balanced.nodup
  simp only [List.nodup_cons, List.mem_cons, not_or] at hnd
  obtain ⟨⟨hpa, hpb, hp3⟩, ⟨hab, ha3⟩, hb3, -⟩ := hnd
  have hfp := hl.refs_free (p := p) (by simp)
  have hfa := hl.refs_free (p := a) (by simp)
  have hfb := hl.refs_free (p := b) (by simp)
  obtain ⟨hm1, ht1⟩ := grabbed_memInv hl
  obtain ⟨hm2, ht2⟩ := grabbed_memInv hm1
  obtain ⟨hm3, ht3⟩ := grabbed_memInv hm2
  have ht := sameTables_trans ht1 (sameTables_trans ht2 ht3)
  change MemInv avail ∅ _ l3 (bitmapsTaken s p a b) at hm3
  change s.SameTables (bitmapsTaken s p a b) at ht
  rw [← hu] at hm3 ht
  have huq : u = { s with
      mem := u.mem
      pages := u.pages
      pageFreeList := u.pageFreeList } := by
    rw [hu]
    rfl
  have hq : s' = { s with
      mem := u.mem
      pages := u.pages
      pageFreeList := u.pageFreeList
      envs := Function.update s.envs e (newGuest (s.envs e) e p parentId entryloc)
      envFreeList := (s.envs e).envLink } := by
    rw [hs', withGuest, ← hu, Kernel.setEnv, huq]
  have hmade : GuestMade e p a b parentId entryloc s s' := by
    constructor
    case free => exact hfree
    case taken =>
      exact ⟨⟨_, hl.chain, by simp⟩, ⟨_, hl.chain, by simp⟩, ⟨_, hl.chain, by simp⟩⟩
    case distinct => exact ⟨hpa, hpb, hab⟩
    case quiet => rw [hq]
    case blank =>
      intro d hd
      have hmem : s'.entry p d = u.entry p d := by
        rw [hq]
        rfl
      rw [hmem, hu, bitmapsTaken, entry_grabbed_of_ne _ hpb hd, entry_grabbed_of_ne _ hpa hd,
        entry_grabbed _ p hd]
    case sameTables =>
      constructor
      case envs => rfl
      case kernPgdir => rw [hq]
      case entry =>
        intro r hr i hi
        have hmem : ({ s' with envs := s.envs } : Kernel).entry r i = u.entry r i := by
          rw [hq]
          rfl
        rw [hmem, ht.entry r hr i hi]
  have hslot := hmade.slotRef
  have hnoref : ∀ q, s.refs q = 0 → ∀ x, s.slotRef x ≠ some q := by
    intro q h0 x
    rw [Kernel.refs, refCount.eq_zero_iff] at h0
    exact h0 x (mem_slots x)
  have hmem : MemInv ((avail.erase a).erase b) ∅ (fun _ => 0) l3 s' := by
    have hattach := hm3.attach (x := .dir e) (p := p) (by rw [hslot, ht.slotRef])
      (by rw [hq]) (by rw [hq])
      (by
        rw [hq, huq])
      (by
        rw [hq, huq])
      (by
        rw [ht.slotRef]
        change s.pgdir e = none
        rw [Kernel.pgdir, if_pos hfree])
      (by
        rw [Function.update_of_ne hpb, Function.update_of_ne hpa, Function.update_self]
        omega)
      (by
        intro y hy
        rw [ht.slotRef] at hy
        exact (hnoref p hfp.2.2.1 y hy).elim)
      (by
        intro _ y
        rw [ht.slotRef]
        exact hnoref p hfp.2.2.1 y)
    have hne : ∀ q, q ≠ p → s.refs q = 0 → ∀ x, s'.slotRef x ≠ some q := by
      intro q hqp h0 x hx
      rw [hslot] at hx
      by_cases hxe : x = .dir e
      · rw [hxe, Function.update_self] at hx
        exact hqp (Option.some.inj hx).symm
      · rw [Function.update_of_ne hxe] at hx
        exact hnoref q h0 x hx
    have hda := memInv_dismiss hattach (a := a) (by
        rw [Function.update_of_ne (Ne.symm hpa), Function.update_of_ne hab, Function.update_self]
        omega) (by simp) (hne a (Ne.symm hpa) hfa.2.2.1)
    have hdb := memInv_dismiss hda (a := b) (by
        rw [Function.update_of_ne (Ne.symm hab), Function.update_of_ne (Ne.symm hpb),
          Function.update_self]
        omega) (by simp) (hne b (Ne.symm hpb) hfb.2.2.1)
    convert hdb using 1
    funext q
    by_cases hqb : q = b
    · rw [hqb, Function.update_self]
    · rw [Function.update_of_ne hqb]
      by_cases hqa : q = a
      · rw [hqa, Function.update_self]
      · rw [Function.update_of_ne hqa]
        by_cases hqp : q = p
        · rw [hqp, Function.update_self, Function.update_of_ne hpb, Function.update_of_ne hpa,
            Function.update_self]
        · rw [Function.update_of_ne hqp, Function.update_of_ne hqb, Function.update_of_ne hqa,
            Function.update_of_ne hqp]
  have henv : EnvInv fl s' := by
    have hst : (newGuest (s.envs e) e p parentId entryloc).envStatus ≠ .ENV_FREE := by
      simp [newGuest]
    have hdir : (newGuest (s.envs e) e p parentId entryloc).envPgdir ≠ none := by
      simp [newGuest]
    apply hfl.alloc hst hdir
    · rw [hq]
    · rw [hq]
  rw [← hs']
  use hmade
  exact h.guestMade hmade hmem henv

/-! ### The system call -/

/-- There is no list but the one of the free pages. -/
theorem hasFree_length {own : Nat → Nat} (h : MemInv avail held own l s) (n : Nat) :
  HasFree n s ↔ n ≤ l.length
  := by
  have hnodup : l.Nodup := h.balanced.nodup
  rw [hasFree_iff h, List.toFinset_card_of_nodup hnodup]

/-- When nothing was taken, nothing has to be given back. -/
theorem GuestFailed.refl {e : Nat} (hfree : (s.envs e).envStatus = .ENV_FREE) :
  GuestFailed s s
  := by
  constructor
  case quiet =>
    use e, (s.envs e).envPgdir, hfree
    rw [Function.update_eq_self]
  case sameTables => exact Kernel.SameTables.of_mem rfl rfl rfl

/-- The kernel after an environment for a guest was allocated. -/
def guestAllocated (s : Kernel) (e p a b : Nat) (parentId : Word) : Kernel :=
  { (bitmapsTaken s p a b).setEnv e { s.envs e with
      envPgdir := some p
      envId := nextEnvId e (s.envs e).envId
      envParentId := parentId
      envType := .ENV_TYPE_GUEST
      envStatus := .ENV_RUNNABLE
      envRuns := 0
      envTf := {}
      envPgfaultUpcall := 0
      envIpcRecving := false } with envFreeList := (s.envs e).envLink }

/-- Allocating a guest fails, or takes the first free environment and the first free pages. -/
theorem envGuestAlloc_ok (h : Wf avail ∅ g.kernel) (parentId : Word) :
  (¬ GuestRoom g.kernel ∧ ∃ r g', envGuestAlloc parentId g = .ok (.error r, g')
      ∧ (r = -E_NO_FREE_ENV ∧ g'.kernel = g.kernel
        ∨ r = -E_NO_MEM ∧ GuestFailed g.kernel g'.kernel) ∧ Wf avail ∅ g'.kernel)
    ∨ (GuestRoom g.kernel ∧ ∃ (e : Fin NENV) (fl : List Nat) (p a b : Nat) (l : List Nat)
      (info : VMInfo), EnvInv (e.val :: fl) g.kernel
      ∧ MemInv avail ∅ (fun _ => 0) (p :: a :: b :: l) g.kernel
      ∧ envGuestAlloc parentId g = .ok (.ok e.val, { g.setInfo e info with
        kernel := guestAllocated g.kernel e p a b parentId }))
  := by
  obtain ⟨l, hl⟩ := h.mem
  obtain ⟨fl, hfl⟩ := h.env
  match fl, hfl with
  | [], hfl =>
    left
    have hnone : g.kernel.envFreeList = none := hfl.chain
    constructor
    · exact fun hroom => hroom.1 hnone
    · refine ⟨-E_NO_FREE_ENV, g, ?_, Or.inl ⟨rfl, rfl⟩, h⟩
      rw [envGuestAlloc, get_bind]
      simp only [hnone]
      rfl
  | e :: fl, hfl =>
    have hhead : g.kernel.envFreeList = some e := hfl.chain.1
    obtain ⟨helt, hfree⟩ := (hfl.mem_free e).mp List.mem_cons_self
    match l, hl with
    | [], hl =>
      left
      constructor
      · intro hroom
        have hlen := (hasFree_length hl 3).mp hroom.2
        simp at hlen
      · refine ⟨-E_NO_MEM, g.setInfo e {}, ?_, Or.inr ⟨rfl, .refl hfree⟩, h⟩
        have hnone := pageAlloc_empty hl rfl
        rw [envGuestAlloc, get_bind]
        simp only [hhead]
        rw [modify_bind, bind_of_eq (onKernel_ok (g := g.setInfo e {}) hnone)]
        rfl
    | p :: l1, hl =>
      have hdir := envGuestAlloc_dir hl hhead parentId
      match l1, hl with
      | [], hl =>
        left
        constructor
        · intro hroom
          have hlen := (hasFree_length hl 3).mp hroom.2
          simp at hlen
        · obtain ⟨g', hrun, hfailed, hwf⟩ := guestBitmaps_one hl h rfl hfree parentId {}
          rw [hdir, hrun]
          exact ⟨_, g', rfl, Or.inr ⟨rfl, hfailed⟩, hwf⟩
      | [a], hl =>
        left
        constructor
        · intro hroom
          have hlen := (hasFree_length hl 3).mp hroom.2
          simp at hlen
        · obtain ⟨g', hrun, hfailed, hwf⟩ := guestBitmaps_two hl h rfl hfree parentId {}
          rw [hdir, hrun]
          exact ⟨_, g', rfl, Or.inr ⟨rfl, hfailed⟩, hwf⟩
      | a :: b :: l3, hl =>
        right
        constructor
        · constructor
          · rw [hhead]
            simp
          · apply (hasFree_length hl 3).mpr
            simp
        · refine ⟨⟨e, helt⟩, fl, p, a, b, l3, { ioBmapA := some a, ioBmapB := some b }, hfl, hl, ?_⟩
          rw [hdir, guestBitmaps_three hl rfl]
          rfl

/-- Making a guest fails when there is no environment or are too few pages for it, and gives back
what it took.  Otherwise it makes one. -/
theorem sysEnvMakeguest_ok {cur : Nat} (h : Wf avail ∅ g.kernel) (hcur : g.kernel.curenv = some cur)
    (physicalsz entryloc : Word) :
  (¬ GuestRoom g.kernel ∧ ∃ r g', sysEnvMakeguest physicalsz entryloc g = .ok (r, g')
      ∧ (r = -E_NO_FREE_ENV ∧ g'.kernel = g.kernel
        ∨ r = -E_NO_MEM ∧ GuestFailed g.kernel g'.kernel) ∧ Wf avail ∅ g'.kernel)
    ∨ (GuestRoom g.kernel ∧ ∃ (e : Fin NENV) (p a b : Nat) (g' : Host),
      sysEnvMakeguest physicalsz entryloc g = .ok ((g'.kernel.envs e).envId, g')
      ∧ GuestMade e p a b (g.kernel.envs cur).envId entryloc g.kernel g'.kernel
      ∧ Wf ((avail.erase a).erase b) ∅ g'.kernel)
  := by
  have hcur' : onKernel curenv g = .ok (cur, g) := onKernel_ok (curenv_eq hcur)
  obtain ⟨hroom, r, g', hrun, hr, hwf⟩ | ⟨hroom, e, fl, p, a, b, l, info, hfl, hl, hrun⟩ :=
    envGuestAlloc_ok h (g.kernel.envs cur).envId
  · left
    use hroom, r, g'
    rw [sysEnvMakeguest, bind_of_eq hcur', get_bind, bind_of_eq hrun]
    exact ⟨rfl, hr, hwf⟩
  · right
    obtain ⟨hmade, hwf⟩ := withGuest_ok h hl hfl (g.kernel.envs cur).envId entryloc
    have hstate : withGuest g.kernel e p a b (g.kernel.envs cur).envId entryloc
        = (guestAllocated g.kernel e p a b (g.kernel.envs cur).envId).setEnv e
          (newGuest (g.kernel.envs e) e p (g.kernel.envs cur).envId entryloc) := by
      rw [withGuest, guestAllocated, Kernel.setEnv, Kernel.setEnv, Kernel.setEnv,
        Function.update_idem]
    refine ⟨hroom, e, p, a, b, { g.setInfo e { info with physicalsz := physicalsz } with
      kernel := withGuest g.kernel e p a b (g.kernel.envs cur).envId entryloc }, ?_, hmade, hwf⟩
    rw [sysEnvMakeguest, bind_of_eq hcur', get_bind, bind_of_eq hrun]
    simp only
    rw [bind_of_eq (onKernel_ok (m := modify _) (a := ()) rfl), modify_bind,
      bind_of_eq (onKernel_ok (m := modify _) (a := ()) rfl), get_bind]
    simp only [Host.setInfo, Function.update_self, Function.update_idem, setEnv_idem, hstate,
      guestAllocated, Kernel.setEnv_envs_self]
    rfl

end Root

end Jos
