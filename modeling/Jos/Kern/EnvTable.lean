import Jos.Kern.EnvIds

/-!
# The table of environments

`env_init` links the environments of `envs` in order.  Its test for the last one compares the
index with `NENV`, which no index is, so that the last environment is linked to what follows
the table.  The free environments are in the list, each once, and they are handed out as long
as there are any; but the list does not end with them, and when no environment is free
`env_alloc` takes what follows the table for one.
-/

namespace Jos

open Bytes Prog

variable {avail : Finset Nat} {l fl : List Nat} {s s' : Kernel}

/-! ### Runs -/

/-- The kernel after `env_init` and any sequence of `env_alloc`, `env_guest_alloc` and
`env_free`, when there always is a page for the directory of a new environment. -/
inductive TableRun (avail : Finset Nat) : Kernel → Prop
  | boot {s s' : Kernel} (hboot : AfterMemInit avail s) (hinit : envInit s = .ok ((), s')) :
    TableRun avail s'
  | alloc {s s' : Kernel} {guest : Bool} {parentId : Word} {r : Except Word Nat}
      (hrun : TableRun avail s) (hpage : s.pageFreeList ≠ none)
      (heq : allocEnv guest parentId s = .ok (r, s')) :
    TableRun avail s'
  | free {s s' : Kernel} {e : Nat} (hrun : TableRun avail s) (hlive : s.Live e)
      (heq : envFree e s = .ok ((), s')) :
    TableRun avail s'

/-! ### What the table is for -/

/-- The list of free environments consists of the environments of the table that are free, each
once. -/
def Kernel.ListsFree (s : Kernel) : Prop :=
  ∃ fl : List Nat, Chain (fun e => (s.envs e).envLink) s.envFreeList fl ∧ fl.Nodup
    ∧ ∀ e, e ∈ fl ↔ e < NENV ∧ (s.envs e).envStatus = .ENV_FREE

/-- A table as it should be: its free environments are listed, one of them is handed out if
there is one, and else the error says so and nothing is changed. -/
structure TableExact (s : Kernel) : Prop where
  lists : s.ListsFree
  hands : s.SomeFree → s.pageFreeList ≠ none → ∀ guest parentId, ∃ e s',
    allocEnv guest parentId s = .ok (.ok e, s') ∧ e < NENV
      ∧ (s.envs e).envStatus = .ENV_FREE
  full : ¬ s.SomeFree → ∀ guest parentId,
    allocEnv guest parentId s = .ok (.error (-E_NO_FREE_ENV), s)

/-- A table as it is: what follows it is linked behind the free environments, and taken for one
when there are none. -/
structure TableLinked (s : Kernel) : Prop where
  lists : ∃ fl : List Nat,
    Chain (fun e => if e < NENV then (s.envs e).envLink else none) s.envFreeList (fl ++ [NENV])
    ∧ fl.Nodup ∧ ∀ e, e ∈ fl ↔ e < NENV ∧ (s.envs e).envStatus = .ENV_FREE
  hands : s.SomeFree → s.pageFreeList ≠ none → ∀ guest parentId, ∃ e s',
    allocEnv guest parentId s = .ok (.ok e, s') ∧ e < NENV
      ∧ (s.envs e).envStatus = .ENV_FREE
  full : ¬ s.SomeFree → ∀ guest parentId,
    allocEnv guest parentId s = .error (.fault (KERNBASE + NENV))

/-! ### What every state of a run looks like -/

/-- The free pages `l` and the free environments `fl` in a state of a run: environments refer
to their page directories and to nothing else. -/
structure Tabled (avail : Finset Nat) (l fl : List Nat) (s : Kernel) : Prop where
  mem : MemInv avail ∅ (fun _ => 0) l s
  env : EnvInv fl s
  dirs : DirInv s
  bare : s.Bare

namespace Tabled

theorem wf (h : Tabled avail l fl s) :
  Wf avail ∅ (fun _ => 0) s
  := by
  constructor
  case mem => exact ⟨l, h.mem⟩
  case env => exact ⟨fl, h.env⟩
  case dirs => apply h.dirs

/-- After `env_init` all environments are free. -/
theorem boot (hboot : AfterMemInit avail s) (hinit : envInit s = .ok ((), s')) :
  ∃ l, Tabled avail l (List.range NENV) s'
  := by
  have hwf := (hboot.wf hinit).1
  obtain ⟨l, hl⟩ := hwf.mem
  obtain ⟨s1, heq, ⟨envs, hs1⟩, hfree⟩ := envInit_ok s
  obtain rfl := (ok_inj heq hinit).2
  use l
  constructor
  case mem => apply hl
  case env =>
    apply envInv_of_init hfree
    rw [hs1]
  case dirs => apply hwf.dirs
  case bare =>
    intro x _ hkern
    apply slotRef_of_free (fun e he => (hfree e he).1) hkern

/-- No environment is free if and only if the list starts with what follows the table. -/
theorem someFree_iff (h : Tabled avail l fl s) :
  s.SomeFree ↔ fl ≠ []
  := by
  constructor
  · rintro ⟨e, he, hst⟩ rfl
    cases (h.env.mem_free e).mpr ⟨he, hst⟩
  · intro hne
    obtain ⟨e, fl', rfl⟩ := List.exists_cons_of_ne_nil hne
    exact ⟨e, (h.env.mem_free e).mp List.mem_cons_self⟩

/-- When all environments are in use, what follows the table is taken for a free one. -/
theorem full (h : Tabled avail l [] s) (guest : Bool) (parentId : Word) :
  allocEnv guest parentId s = .error (.fault (KERNBASE + NENV))
  := by
  have hhead : s.envFreeList = some NENV := h.env.chain.1
  obtain ⟨type, htype⟩ := allocEnv_eq guest parentId
  rw [htype, envAllocType, get_bind]
  simp only [hhead]
  rfl

/-- The first free environment is handed out, when there is a page for its directory. -/
theorem alloc {e : Nat} (h : Tabled avail l (e :: fl) s) (hpage : s.pageFreeList ≠ none)
    (guest : Bool) (parentId : Word) :
  ∃ p l' s', l = p :: l' ∧ e < NENV ∧ (s.envs e).envStatus = .ENV_FREE
    ∧ allocEnv guest parentId s = .ok (.ok e, s') ∧ Tabled avail l' fl s'
  := by
  obtain ⟨helt, hst⟩ := (h.env.mem_free e).mp List.mem_cons_self
  obtain ⟨type, htype⟩ := allocEnv_eq guest parentId
  obtain ⟨rfl, -⟩ | ⟨e', p, l', fl', s', hfl, hl, heq, hc, hmem, henv⟩ :=
    envAllocType_ok h.mem h.env (Ledger.head_ne_of_free h.env ⟨e, helt, hst⟩) type parentId
  · exact (hpage (h.mem.pageFreeList_eq_none.mpr rfl)).elim
  · obtain ⟨rfl, rfl⟩ := List.cons.inj hfl
    rw [htype]
    refine ⟨p, l', s', hl, helt, hst, heq, ?_⟩
    constructor
    case mem => apply hmem
    case env => apply henv
    case dirs => apply h.dirs.created hc hmem
    case bare => apply h.bare.created hc

/-- An environment that is freed becomes the first free one. -/
theorem free (h : Tabled avail l fl s) {e : Nat} (hlive : s.Live e) :
  ∃ l' s', envFree e s = .ok ((), s') ∧ Tabled avail l' (e :: fl) s'
  := by
  have hfits := Ledger.fits_of_mappings h.wf h.bare.mappings
  obtain ⟨s', l', heq, hf, hmem, henv⟩ := envFree_ok (e := ⟨e, hlive.1⟩) h.mem h.env hlive hfits
  use l', s', heq
  constructor
  case mem => apply hmem
  case env => apply henv
  case dirs => apply h.dirs.freed hf
  case bare =>
    intro x hdir hkern
    rw [hf.slotRef h.bare, Function.update_of_ne (hdir _)]
    apply h.bare x hdir hkern

end Tabled

/-- In every state of a run the list goes through the free environments and ends behind the
table. -/
theorem TableRun.tabled (hrun : TableRun avail s) :
  ∃ l fl, Tabled avail l fl s
  := by
  induction hrun with
  | boot hboot hinit =>
      obtain ⟨l, h⟩ := Tabled.boot hboot hinit
      exact ⟨l, _, h⟩
  | @alloc s s' guest parentId r hrun hpage heq ih =>
      obtain ⟨l, fl, h⟩ := ih
      cases fl with
      | nil =>
          rw [h.full guest parentId] at heq
          cases heq
      | cons e fl =>
          obtain ⟨p, l', s1, -, -, -, heq1, h'⟩ := h.alloc hpage guest parentId
          obtain ⟨-, rfl⟩ := ok_inj heq heq1
          exact ⟨l', fl, h'⟩
  | @free s s' e hrun hlive heq ih =>
      obtain ⟨l, fl, h⟩ := ih
      obtain ⟨l', s1, heq1, h'⟩ := h.free hlive
      obtain ⟨-, rfl⟩ := ok_inj heq heq1
      exact ⟨l', e :: fl, h'⟩

/-! ### The table as it is -/

theorem Tabled.linked (h : Tabled avail l fl s) :
  TableLinked s
  := by
  constructor
  case lists => exact ⟨fl, h.env.chain, h.env.nodup, h.env.mem_free⟩
  case hands =>
    intro hsome hpage guest parentId
    obtain ⟨e, fl', rfl⟩ := List.exists_cons_of_ne_nil (h.someFree_iff.mp hsome)
    obtain ⟨p, l', s', -, helt, hst, heq, -⟩ := h.alloc hpage guest parentId
    exact ⟨e, s', heq, helt, hst⟩
  case full =>
    intro hnone guest parentId
    obtain rfl : fl = [] := by
      by_contra hne
      exact hnone (h.someFree_iff.mpr hne)
    apply h.full

/-- A list that goes on behind the table is not the list of the free environments. -/
theorem TableLinked.not_listsFree (h : TableLinked s) :
  ¬ s.ListsFree
  := by
  rintro ⟨fl', hchain', -, hmem'⟩
  obtain ⟨fl, hchain, -, -⟩ := h.lists
  have hin : Chain (fun e => if e < NENV then (s.envs e).envLink else none) s.envFreeList fl' := by
    apply hchain'.congr
    intro e he
    rw [if_pos ((hmem' e).mp he).1]
  have hlast : NENV ∈ fl' := by
    rw [hin.unique hchain]
    exact List.mem_append_right _ (List.mem_singleton_self NENV)
  exact Nat.lt_irrefl NENV ((hmem' NENV).mp hlast).1

/-- In no state of any run is the table as it should be: what follows it is in the list of free
environments, and is taken for one when none is free.  Else the list is that of the free
environments, and these are handed out as long as there are any. -/
theorem TableRun.not_exact (hrun : TableRun avail s) :
  ¬ TableExact s ∧ TableLinked s
  := by
  obtain ⟨l, fl, h⟩ := hrun.tabled
  constructor
  · intro hexact
    exact h.linked.not_listsFree hexact.lists
  · exact h.linked

/-- Runs in which `k` environments are created, one after the other. -/
theorem tableRun_alloc {k : Nat} (hk : k ≤ NENV) :
  ∃ l fl s, TableRun (bootAvail (NENV + 1)) s ∧ Tabled (bootAvail (NENV + 1)) l fl s
    ∧ l.length + k = NENV + 1 ∧ fl.length + k = NENV
  := by
  induction k with
  | zero =>
      have hboot := bootKernel_afterMemInit (n := NENV + 1) (by decide)
      obtain ⟨s, hinit, ⟨envs, hs⟩, -⟩ := envInit_ok (bootKernel (NENV + 1))
      obtain ⟨l, h⟩ := Tabled.boot hboot hinit
      refine ⟨l, _, s, TableRun.boot hboot hinit, h, ?_, by rw [List.length_range, Nat.add_zero]⟩
      have hchain := bootKernel_chain (NENV + 1)
      have hlist : s.pageFreeList = (bootKernel (NENV + 1)).pageFreeList := by rw [hs]
      have hpages : s.pages = (bootKernel (NENV + 1)).pages := by rw [hs]
      rw [← hlist, ← hpages] at hchain
      rw [h.mem.chain.unique hchain, List.length_range', Nat.add_zero]
  | succ k ih =>
      obtain ⟨l, fl, s, hrun, h, hl, hfl⟩ := ih (by omega)
      obtain ⟨e, fl', rfl⟩ : ∃ e fl', fl = e :: fl' := by
        apply List.exists_cons_of_ne_nil
        rintro rfl
        rw [List.length_nil] at hfl
        omega
      have hpage : s.pageFreeList ≠ none := by
        intro hnone
        rw [h.mem.pageFreeList_eq_none.mp hnone, List.length_nil] at hl
        omega
      obtain ⟨p, l', s', rfl, -, -, heq, h'⟩ := h.alloc hpage false 0
      refine ⟨l', fl', s', hrun.alloc hpage heq, h', ?_, ?_⟩
      · rw [List.length_cons] at hl
        omega
      · rw [List.length_cons] at hfl
        omega

/-- With `NENV` environments in use, and pages left, the next call of `env_alloc` does not
return `-E_NO_FREE_ENV`. -/
theorem not_tableExact :
  ∃ s, TableRun (bootAvail (NENV + 1)) s ∧ s.pageFreeList ≠ none ∧ (∀ e < NENV, s.Live e)
    ∧ envAlloc 0 s = .error (.fault (KERNBASE + NENV)) ∧ ¬ TableExact s
  := by
  obtain ⟨l, fl, s, hrun, h, hl, hfl⟩ := tableRun_alloc (Nat.le_refl NENV)
  obtain rfl := List.eq_nil_of_length_eq_zero (l := fl) (by omega)
  have hfault := h.full false 0
  refine ⟨s, hrun, ?_, ?_, hfault, ?_⟩
  · intro hnone
    rw [h.mem.pageFreeList_eq_none.mp hnone, List.length_nil] at hl
    omega
  · intro e he
    constructor
    · apply he
    · intro hst
      cases (h.env.mem_free e).mpr ⟨he, hst⟩
  · intro hexact
    have hnone : ¬ s.SomeFree := fun hsome => h.someFree_iff.mp hsome rfl
    rw [hexact.full hnone false 0] at hfault
    cases hfault

/-- The table after `env_init`. -/
theorem TableRun.not_exact_boot :
  ∃ s, TableRun (bootAvail 1) s ∧ ¬ TableExact s ∧ TableLinked s
  := by
  obtain ⟨s, hinit, -, -⟩ := envInit_ok (bootKernel 1)
  have hrun := TableRun.boot (bootKernel_afterMemInit (n := 1) (by decide)) hinit
  exact ⟨s, hrun, hrun.not_exact⟩

end Jos
