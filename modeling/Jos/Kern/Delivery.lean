import Jos.Kern.PageFault
import Jos.Kern.UserMode

/-!
# Page faults are delivered or destroy the environment

For a page fault taken in user mode `page_fault_handler` should push a frame on the exception
stack and go on at the upcall, or destroy the environment, and it should destroy it only when
there is no upcall, when the frame does not fit, or when the environment may not write to the
exception stack.

It does so except in two cases.  With its stack pointer in the guard page below the exception
stack, the environment is destroyed whatever its exception stack is like.  And the check the
handler makes of the exception stack is the one of `user_mem_check`, which a page passes that
has one of the flags only: on a page that is not writeable the kernel faults.
-/

namespace Jos

open Bytes Prog

variable {avail held : Finset Nat} {own : Nat → Nat} {s s' : Kernel}

/-! ### The page of the exception stack -/

/-- Addresses of the exception stack are translated as its lowest address is. -/
theorem excStack_parts {va : Word} (hlo : UXSTACKTOP - PGSIZE ≤ va.toNat)
    (hhi : va.toNat < UXSTACKTOP) :
  PDX va = PDX excStack ∧ PTX va = PTX excStack
    ∧ PGOFF va = va.toNat - (UXSTACKTOP - PGSIZE)
  := by
  have hbase : excStack.toNat = UXSTACKTOP - PGSIZE := by decide
  rw [PDX_eq, PDX_eq, PTX_eq, PTX_eq, PGOFF_eq, hbase]
  simp only [UXSTACKTOP, UTOP, UENVS, UPAGES, UVPT, ULIM, MMIOBASE, MMIOLIM, KSTACKTOP, KERNBASE,
    PTSIZE, PGSIZE] at hlo hhi ⊢
  omega

/-- What is said of the page is said of all its addresses. -/
theorem excStack_congr {va : Word} (hlo : UXSTACKTOP - PGSIZE ≤ va.toNat)
    (hhi : va.toNat < UXSTACKTOP) (pg : Nat) (perm : Word) :
  s.entries pg va = s.entries pg excStack ∧ (s.Passes pg perm va ↔ s.Passes pg perm excStack)
    ∧ s.userWritable pg va = s.userWritable pg excStack
  := by
  obtain ⟨hpdx, hptx, -⟩ := excStack_parts hlo hhi
  have hent : s.entries pg va = s.entries pg excStack :=
    entries_congr hpdx hptx rfl (fun _ _ => rfl)
  refine ⟨hent, ?_, ?_⟩
  · have hlt : va.toNat < ULIM ↔ excStack.toNat < ULIM :=
      iff_of_true (Nat.lt_trans hhi (by decide)) (by decide)
    rw [Kernel.Passes, Kernel.Passes, hpdx, hptx, hlt]
  · rw [Kernel.userWritable, Kernel.userWritable, Kernel.allows, Kernel.allows, hent]

/-- What translates an address are entries that refer to pages. -/
theorem entries_refOf {pg : Nat} {va pd pt : Word} (h : s.entries pg va = some (pd, pt)) :
  refOf (s.entry pg (PDX va)) = some (ptePage pd) ∧ s.entry (ptePage pd) (PTX va) = pt
    ∧ refOf pt = some (ptePage pt)
  := by
  unfold Kernel.entries at h
  simp only at h
  split at h
  case isTrue hpd =>
    split at h
    case isTrue hpt =>
      obtain ⟨rfl, rfl⟩ := Prod.mk.inj (Option.some.inj h)
      refine ⟨?_, rfl, ?_⟩
      · rw [refOf, if_pos hpd]
      · rw [refOf, if_pos hpt]
    case isFalse => cases h
  case isFalse => cases h

/-- What an environment may write to is writeable for the kernel. -/
theorem Kernel.allows_of_userWritable {pg : Nat} {va : Word} (h : s.userWritable pg va = true) :
  s.allows pg PTE_W va = true
  := by
  have hor : PTE_U ||| PTE_W = PTE_W ||| PTE_U := BitVec.or_comm _ _
  rw [Kernel.userWritable, Kernel.allows, hor] at h
  rw [Kernel.allows]
  cases hent : s.entries pg va with
  | none =>
      rw [hent] at h
      cases h
  | some w =>
      rw [hent] at h
      simp only [decide_eq_true_eq] at h ⊢
      exact ⟨and_of_and_or h.1, and_of_and_or h.2⟩

/-- A writeable page of an environment is not one of its paging structures. -/
theorem Wf.mapsTo (h : Wf avail held own s) {e : Fin NENV} {pg : Nat}
    (hpg : s.pgdir e = some pg) {va : Word} (hva : va.toNat < UTOP)
    (hw : s.allows pg PTE_W va = true) :
  ∃ pd pt, MapsTo s pg va pd pt ∧ pd &&& PTE_W = PTE_W ∧ pt &&& PTE_W = PTE_W
  := by
  obtain ⟨l, hl⟩ := h.mem
  cases hent : s.entries pg va with
  | none =>
      rw [Kernel.allows, hent] at hw
      cases hw
  | some w =>
      obtain ⟨pd, pt⟩ := w
      rw [Kernel.allows, hent] at hw
      simp only [decide_eq_true_eq] at hw
      obtain ⟨hdir, htable, hpt⟩ := entries_refOf hent
      have hpde : s.pde e (PDX va) = s.entry pg (PDX va) := by rw [Kernel.pde, hpg]
      have hpte : s.pteAt e va = pt := by
        rw [Kernel.pteAt, Kernel.pte, hpde, hdir]
        exact htable
      have hslot : s.slotRef (.table e ⟨PDX va, PDX_lt_of_lt_UTOP hva⟩) = some (ptePage pd) := by
        rw [Kernel.slotRef, hpde, hdir]
      have hpage : s.slotRef (.page e ⟨PDX va, PDX_lt_of_lt_UTOP hva⟩ ⟨PTX va, PTX_lt va⟩)
          = some (ptePage pt) := by
        rw [← hpt, ← hpte]
        rfl
      refine ⟨pd, pt, ⟨hent, ?_, ?_⟩, hw.1, hw.2⟩
      · exact Kernel.ref_ne_of_owns hl (x := .dir e) hpg trivial hpage (by simp)
      · exact Kernel.ref_ne_of_owns hl hslot trivial hpage (by simp)

/-! ### What becomes of a page fault -/

/-- Whether the stack pointer lies in the guard page below the exception stack. -/
def InGuard (esp : Word) : Prop :=
  USTACKTOP ≤ esp.toNat ∧ esp.toNat < UXSTACKTOP - PGSIZE

/-- Whether the frame fits in the page of the exception stack. -/
def FrameFits (esp : Word) : Prop :=
  UXSTACKTOP - PGSIZE ≤ (frameVa esp).toNat

/-- With the stack pointer in the guard page the frame is pushed at the top of the exception
stack. -/
theorem InGuard.frameFits {esp : Word} (h : InGuard esp) :
  FrameFits esp ∧ NoRoom esp
  := by
  have hoff : ¬ (esp.toNat ≥ UXSTACKTOP - PGSIZE ∧ esp.toNat ≤ UXSTACKTOP - 1) :=
    fun hon => Nat.not_le_of_lt h.2 hon.1
  constructor
  · rw [FrameFits, frameVa, faultStack, if_neg hoff]
    decide
  · exact ⟨h.1, Nat.lt_of_lt_of_le h.2 (by decide)⟩

/-- There is no room in the guard page, and where the frame does not fit. -/
theorem noRoom_cases {esp : Word} (h : NoRoom esp) :
  InGuard esp ∨ ¬ FrameFits esp
  := by
  obtain hno | ⟨-, hlt⟩ := (noRoom_iff esp).mp h
  · rw [not_or] at hno
    exact Or.inl ⟨Nat.le_of_not_lt hno.2, Nat.lt_of_not_le hno.1⟩
  · exact Or.inr (Nat.not_le_of_lt hlt)

/-- From `s` to `s'` a frame for the page fault at `faultVa` was pushed on the exception stack
of the environment `e`, whose directory is `pg`, and the environment goes on at its upcall. -/
structure FaultDelivered (e pg : Nat) (faultVa : Word) (s s' : Kernel) : Prop where
  inside : UXSTACKTOP - PGSIZE ≤ (frameVa (s.envs e).envTf.tfEsp).toNat
    ∧ (frameVa (s.envs e).envTf.tfEsp).toNat + UTrapframe.size ≤ UXSTACKTOP
  writable : ∀ i < UTrapframe.size,
    s.userWritable pg (frameVa (s.envs e).envTf.tfEsp + BitVec.ofNat 32 i) = true
  frame : ∃ a, s.translate pg (frameVa (s.envs e).envTf.tfEsp) = some a
    ∧ (∀ i (hi : i < (UTrapframe.ofTrap faultVa (s.envs e).envTf).words.length),
      read32 s'.mem (a + 4 * i) = (UTrapframe.ofTrap faultVa (s.envs e).envTf).words[i])
    ∧ ∀ x, x < a ∨ a + UTrapframe.size ≤ x → s'.mem x = s.mem x
  resumed : s' = ({ s with mem := s'.mem, derefs := s'.derefs }.setEnv e { s.envs e with
    envTf := { (s.envs e).envTf with
      tfEsp := frameVa (s.envs e).envTf.tfEsp
      tfEip := (s.envs e).envPgfaultUpcall } }).running e

/-- How a run from `s` that ends with `r` destroys the current environment `e`: it is freed and
another one is chosen, or the kernel stays in its monitor, as there is none to wait for. -/
def Kills (held : Finset Nat) (e : Fin NENV) (s : Kernel)
    (r : Except (Stop Kernel) (Unit × Kernel)) : Prop :=
  ∃ s1, Freed held e s s1 ∧
    ((∃ s', r = .error (.leave s') ∧ Switched { s1 with curenv := none } s') ∨
      (¬ s1.SomeAlive ∧ r = noRunnable s))

/-- The handler destroys the current environment `e`. The address at which a check of its memory
failed may have been noted. -/
def FaultKilled (held : Finset Nat) (e : Fin NENV) (faultVa : Word) (s : Kernel) : Prop :=
  ∃ a, Kills held e { s with userMemCheckAddr := a } (pageFaultHandler faultVa s)

/-- The handler neither panics nor faults: it delivers the page fault to the environment `e`, or
destroys the environment for the reason `why`. -/
def FaultHandled (held : Finset Nat) (e : Fin NENV) (pg : Nat) (faultVa : Word) (why : Prop)
    (s : Kernel) : Prop :=
  (∃ s', pageFaultHandler faultVa s = .error (.leave s') ∧ FaultDelivered e pg faultVa s s') ∨
    (FaultKilled held e faultVa s ∧ why)

/-- Switching to an environment accesses no user memory. -/
theorem running_derefs (s : Kernel) (e : Nat) :
  (s.running e).derefs = s.derefs
  := by rw [Kernel.running_quiet]

/-- Destroying the current environment chooses another one, if there is one to wait for. -/
theorem envDestroy_kills (h : Wf avail held own s) {e : Fin NENV} (hcur : s.curenv = some e.val)
    (hlive : s.Live e) (hfits : s.Fits avail own) :
  Kills held e s (envDestroy e s)
  := by
  by_cases halive : s.OtherAlive e
  · obtain ⟨_, s', -, hdone, -⟩ | ⟨s', hleave, ⟨s1, hfreed, -, hsw⟩, -⟩ :=
      (envDestroy_ok h hlive hfits (fun _ => halive)).cases
    · cases hdone with
      | dying _ hother => exact (hother hcur).elim
      | freed _ hother => exact (hother hcur).elim
    · exact ⟨s1, hfreed, Or.inl ⟨s', hleave, hsw⟩⟩
  · obtain ⟨s1, hfreed, heq⟩ := envDestroy_stuck h hlive hfits hcur halive
    exact ⟨s1, hfreed, Or.inr ⟨fun h1 => halive (hfreed.someAlive_iff.mp h1), heq⟩⟩

/-- An environment that is destroyed does not go on. -/
theorem Kills.not_current {e : Fin NENV} {r : Except (Stop Kernel) (Unit × Kernel)}
    (h : Kills held e s r) (heq : r = .error (.leave s')) :
  s'.curenv ≠ some e.val
  := by
  intro hcur
  subst heq
  obtain ⟨s1, hfreed, ⟨s2, heq, hsw⟩ | ⟨-, heq⟩⟩ := h
  · cases heq
    have hfree : (s1.envs e).envStatus = .ENV_FREE := by
      rw [hfreed.envs, Function.update_self]
    obtain ⟨e', hlive, rfl⟩ | rfl := hsw
    · have he : e' = e.val := Option.some.inj hcur
      rw [he] at hlive
      exact hlive.2 hfree
    · cases hcur
  · cases heq

section Handler

variable (h : Wf avail held own s) {e : Fin NENV} {pg : Nat} (hpg : s.pgdir e = some pg)
include h hpg

/-- What the environment may write to passes the check of the exception stack. -/
theorem passes_of_writable (hw : s.userWritable pg excStack = true) :
  s.Passes pg (PTE_W ||| PTE_U ||| PTE_P) excStack
  := by
  obtain ⟨pd, pt, hm, -, hpt⟩ := h.mapsTo hpg (by decide) (Kernel.allows_of_userWritable hw)
  obtain ⟨hdir, htable, href⟩ := entries_refOf hm.entries
  refine ⟨ptePage pd, hdir, by decide, ?_⟩
  rw [htable]
  intro hzero
  have hand : pt &&& PTE_P = 0 := by
    have hmask : (PTE_W ||| PTE_U ||| PTE_P) &&& PTE_P = PTE_P := by decide
    rw [← hmask, ← BitVec.and_assoc, hzero]
    rfl
  rw [refOf_eq_none.mpr hand] at href
  cases href

variable (hcur : s.curenv = some e.val) (faultVa : Word)
include hcur

/-- The handler is left with the frame pushed when the exception stack is writeable. -/
theorem pushFrame_ok {esp : Word} (hesp : (s.envs e).envTf.tfEsp = esp) (hroom : ¬ NoRoom esp)
    (hw : s.allows pg PTE_W excStack = true) :
  ∃ s', (do
      kernStoreWords (frameVa esp) (UTrapframe.ofTrap faultVa (s.envs e).envTf).words
      modify (fun t => t.setEnv e { t.envs e with
        envTf := { (t.envs e).envTf with
          tfEsp := frameVa esp
          tfEip := (s.envs e).envPgfaultUpcall } })
      envRun e : Prog Kernel Unit) s = .error (.leave s')
    ∧ s'.curenv = some e.val
    ∧ (s.userWritable pg excStack = true → FaultDelivered e pg faultVa s s')
  := by
  obtain ⟨hlo, hhi⟩ := frameVa_inside hroom
  obtain ⟨-, henvpg⟩ := Kernel.pgdir_eq_some hpg
  have hlt : (frameVa esp).toNat < UXSTACKTOP := by
    simp only [UTrapframe.size] at hhi
    omega
  obtain ⟨hent, -, hwritable⟩ := excStack_congr (s := s) hlo hlt pg 0
  obtain ⟨-, -, hoff⟩ := excStack_parts hlo hlt
  rw [Kernel.allows, ← hent] at hw
  obtain ⟨pd, pt, hm, hpd, hpt⟩ := h.mapsTo hpg (Nat.lt_of_lt_of_le hlt (by decide)) hw
  have hsize : PGOFF (frameVa esp) + 4 * (UTrapframe.ofTrap faultVa (s.envs e).envTf).words.length
      ≤ PGSIZE := by
    change PGOFF (frameVa esp) + 52 ≤ 4096
    rw [hoff]
    simp only [UTrapframe.size, UXSTACKTOP, PGSIZE] at hlo hhi ⊢
    omega
  obtain ⟨s1, heq, hst, hwords⟩ := kernStoreWords_ok hcur henvpg hm hpd hpt hsize
  have henvs : s1.envs = s.envs := hst.memOnly.envs
  obtain ⟨tf, htf⟩ : ∃ tf, tf = { (s.envs e).envTf with
      tfEsp := frameVa esp
      tfEip := (s.envs e).envPgfaultUpcall } := ⟨_, rfl⟩
  obtain ⟨s2, hs2⟩ : ∃ s2, s2 = s1.setEnv e { s.envs e with envTf := tf } := ⟨_, rfl⟩
  have hpg2 : (s2.envs e).envPgdir ≠ none := by
    rw [hs2, Kernel.setEnv_envs_self, henvpg]
    simp
  have hmem : (s2.running e).mem = s1.mem := by
    rw [Kernel.running_mem, hs2]
    rfl
  have hderefs : (s2.running e).derefs = s1.derefs := by
    rw [running_derefs, hs2]
    rfl
  refine ⟨s2.running e, ?_, rfl, ?_⟩
  · rw [bind_of_eq heq, modify_bind, henvs, ← htf, ← hs2]
    exact envRun_eq hpg2
  · intro huserw
    rw [huserw] at hwritable
    subst hesp
    constructor
    case inside => exact ⟨hlo, hhi⟩
    case writable =>
      intro i hi
      have hin : PGOFF (frameVa (s.envs e).envTf.tfEsp) + i < PGSIZE := by
        rw [hoff]
        simp only [UTrapframe.size, UXSTACKTOP, PGSIZE] at hlo hhi hi ⊢
        omega
      obtain ⟨hpdx, hptx, -⟩ := page_add hin
      rw [← hwritable, Kernel.userWritable, Kernel.userWritable, Kernel.allows, Kernel.allows,
        entries_congr hpdx hptx rfl (fun _ _ => rfl)]
    case frame =>
      refine ⟨_, hm.translate, ?_, ?_⟩
      · rw [hmem]
        exact hwords
      · rw [hmem]
        exact hst.mem
    case resumed =>
      rw [hmem, hderefs, ← hst.quiet, hs2, htf]

omit h hpg in
/-- The handler destroys the environment at once if there is no upcall, or no room for a frame. -/
theorem pageFaultHandler_destroys (huser : (s.envs e).envTf.tfCs &&& 3 = 3)
    (hwhy : (s.envs e).envPgfaultUpcall = 0 ∨ NoRoom (s.envs e).envTf.tfEsp) :
  pageFaultHandler faultVa s = envDestroy e s
  := by
  rw [pageFaultHandler, bind_of_eq (curenv_eq hcur), get_bind]
  simp only
  rw [if_neg (fun hne => hne huser)]
  rw [noRoom_iff] at hwhy
  split
  case isTrue hand =>
    obtain hzero | hno | ⟨-, hlt⟩ := hwhy
    · exact (hand.1 hzero).elim
    · exact (hno hand.2).elim
    · exact congrFun (if_pos hlt) s
  case isFalse => rfl

omit h hpg in
/-- Otherwise it pushes a frame, provided that the exception stack passes the check. -/
theorem pageFaultHandler_pushes (huser : (s.envs e).envTf.tfCs &&& 3 = 3)
    (hupcall : (s.envs e).envPgfaultUpcall ≠ 0) (hroom : ¬ NoRoom (s.envs e).envTf.tfEsp) :
  pageFaultHandler faultVa s = (do
    userMemAssert e (frameVa (s.envs e).envTf.tfEsp) 1 PTE_W
    kernStoreWords (frameVa (s.envs e).envTf.tfEsp)
      (UTrapframe.ofTrap faultVa (s.envs e).envTf).words
    modify (fun t => t.setEnv e { t.envs e with
      envTf := { (t.envs e).envTf with
        tfEsp := frameVa (s.envs e).envTf.tfEsp
        tfEip := (s.envs e).envPgfaultUpcall } })
    envRun e : Prog Kernel Unit) s
  := by
  rw [noRoom_iff, not_or, not_not] at hroom
  obtain ⟨hin, hfit⟩ := hroom
  rw [pageFaultHandler, bind_of_eq (curenv_eq hcur), get_bind]
  simp only
  rw [if_neg (fun hne => hne huser), if_pos ⟨hupcall, hin⟩]
  exact congrFun (if_neg (fun hlt => hfit ⟨hin, hlt⟩)) s

omit h in
/-- The handler faults when the frame is to be pushed to a page that is not writeable. -/
theorem pushFrame_fault {α : Type} {esp : Word} (hroom : ¬ NoRoom esp)
    (hw : s.allows pg PTE_W excStack = false) (f : Unit → Prog Kernel α) :
  ∃ addr, (kernStoreWords (frameVa esp) (UTrapframe.ofTrap faultVa (s.envs e).envTf).words >>= f) s
    = .error (.fault addr)
  := by
  obtain ⟨hlo, hhi⟩ := frameVa_inside hroom
  obtain ⟨-, henvpg⟩ := Kernel.pgdir_eq_some hpg
  have hlt : (frameVa esp).toNat < UXSTACKTOP := by
    simp only [UTrapframe.size] at hhi
    omega
  obtain ⟨hent, -, -⟩ := excStack_congr (s := s) hlo hlt pg 0
  rw [Kernel.allows, ← hent] at hw
  obtain ⟨w, ws, hws⟩ : ∃ w ws, (UTrapframe.ofTrap faultVa (s.envs e).envTf).words = w :: ws :=
    ⟨_, _, rfl⟩
  have hstore := kernStore_fault hcur henvpg hw (byteOf w 0)
  have hword : kernStore32 (frameVa esp) w s = .error (.fault (frameVa esp).toNat) := by
    rw [kernStore32]
    exact bind_of_error hstore
  use (frameVa esp).toNat
  rw [hws, kernStoreWords]
  exact bind_of_error (bind_of_error hword)

/-- What the handler does where it does not destroy the environment at once: it delivers the page
fault if the exception stack passes the check and may be written to, and it destroys the
environment if the exception stack does not pass. -/
theorem pageFaultHandler_checked (hfits : s.Fits avail own)
    (huser : (s.envs e).envTf.tfCs &&& 3 = 3) (hupcall : (s.envs e).envPgfaultUpcall ≠ 0)
    (hroom : ¬ NoRoom (s.envs e).envTf.tfEsp) :
  (s.Passes pg (PTE_W ||| PTE_U ||| PTE_P) excStack →
    (s.userWritable pg excStack = true →
      ∃ s', pageFaultHandler faultVa s = .error (.leave s') ∧ FaultDelivered e pg faultVa s s') ∧
    ((∃ s', pageFaultHandler faultVa s = .error (.leave s') ∧ s'.curenv = some e.val) ∨
      ∃ addr, pageFaultHandler faultVa s = .error (.fault addr))) ∧
  (¬ s.Passes pg (PTE_W ||| PTE_U ||| PTE_P) excStack → FaultKilled held e faultVa s)
  := by
  have hlive : s.Live e := ⟨e.isLt, (Kernel.pgdir_eq_some hpg).1⟩
  have hrun := pageFaultHandler_pushes hcur faultVa huser hupcall hroom
  obtain ⟨hlo, hhi⟩ := frameVa_inside hroom
  have hlt : (frameVa (s.envs e).envTf.tfEsp).toNat < UXSTACKTOP := by
    simp only [UTrapframe.size] at hhi
    omega
  obtain ⟨-, hpasses, -⟩ := excStack_congr (s := s) hlo hlt pg (PTE_W ||| PTE_U ||| PTE_P)
  have hone : (∀ i < (1 : Word).toNat, s.Passes pg (PTE_W ||| PTE_U ||| PTE_P)
      (frameVa (s.envs e).envTf.tfEsp + BitVec.ofNat 32 i))
      ↔ s.Passes pg (PTE_W ||| PTE_U ||| PTE_P) excStack := by
    have hzero : frameVa (s.envs e).envTf.tfEsp + BitVec.ofNat 32 0
        = frameVa (s.envs e).envTf.tfEsp := BitVec.add_zero _
    rw [← hpasses]
    constructor
    · intro hall
      rw [← hzero]
      exact hall 0 (by decide)
    · intro hva i hi
      obtain rfl : i = 0 := Nat.lt_one_iff.mp hi
      rw [hzero]
      exact hva
  obtain ⟨hall, heq⟩ | ⟨hno, a, heq⟩ :=
    userMemAssert_ok h hpg (frameVa (s.envs e).envTf.tfEsp) 1 PTE_W
  · refine ⟨fun _ => ?_, fun hno => (hno (hone.mp hall)).elim⟩
    rw [bind_of_eq heq] at hrun
    by_cases hw : s.allows pg PTE_W excStack = true
    · obtain ⟨s2, heq2, hcur2, hdel⟩ := pushFrame_ok h hpg hcur faultVa rfl hroom hw
      rw [heq2] at hrun
      exact ⟨fun huserw => ⟨s2, hrun, hdel huserw⟩, Or.inl ⟨s2, hrun, hcur2⟩⟩
    · refine ⟨fun huserw => (hw (Kernel.allows_of_userWritable huserw)).elim, Or.inr ?_⟩
      rw [Bool.not_eq_true] at hw
      rw [hrun]
      exact pushFrame_fault hpg hcur faultVa hroom hw _
  · refine ⟨fun hpass => ?_, fun _ => ⟨a, ?_⟩⟩
    · obtain ⟨i, hi, hnot⟩ := hno
      exact (hnot (hone.mpr hpass i hi)).elim
    · have hwf : Wf avail held own { s with userMemCheckAddr := a } :=
        h.congr rfl rfl rfl rfl rfl rfl rfl
      have hkills := envDestroy_kills hwf hcur hlive hfits
      rw [← heq] at hkills
      obtain ⟨s1, hfreed, ⟨s', hleave, hsw⟩ | ⟨hnone, hstuck⟩⟩ := hkills
      · refine ⟨s1, hfreed, Or.inl ⟨s', ?_, hsw⟩⟩
        rw [hrun]
        exact bind_of_error hleave
      · refine ⟨s1, hfreed, Or.inr ⟨hnone, ?_⟩⟩
        rw [hrun]
        exact bind_of_error hstuck

omit h hpg hcur in
/-- A run that goes on with the environment has not destroyed it, nor has one that faults. -/
theorem not_faultKilled
    (hend : (∃ s', pageFaultHandler faultVa s = .error (.leave s') ∧ s'.curenv = some e.val) ∨
      ∃ addr, pageFaultHandler faultVa s = .error (.fault addr)) :
  ¬ FaultKilled held e faultVa s
  := by
  rintro ⟨a, hkills⟩
  obtain ⟨s', heq, hcur'⟩ | ⟨addr, heq⟩ := hend
  · exact hkills.not_current heq hcur'
  · rw [heq] at hkills
    obtain ⟨s1, -, ⟨s2, heq2, -⟩ | ⟨-, heq2⟩⟩ := hkills
    · cases heq2
    · cases heq2

/-- An exception stack that passes the check and may not be written to is not handled. -/
theorem not_handled_of_passes (hfits : s.Fits avail own)
    (huser : (s.envs e).envTf.tfCs &&& 3 = 3) (hupcall : (s.envs e).envPgfaultUpcall ≠ 0)
    (hroom : ¬ NoRoom (s.envs e).envTf.tfEsp)
    (hpass : s.Passes pg (PTE_W ||| PTE_U ||| PTE_P) excStack)
    (hw : s.userWritable pg excStack = false) (why : Prop) :
  ¬ FaultHandled held e pg faultVa why s
  := by
  obtain ⟨-, hend⟩ := (pageFaultHandler_checked h hpg hcur faultVa hfits huser hupcall hroom).1 hpass
  rintro (⟨s', heq, hdel⟩ | ⟨hkilled, -⟩)
  · obtain ⟨hlo, hhi⟩ := frameVa_inside hroom
    have hlt : (frameVa (s.envs e).envTf.tfEsp).toNat < UXSTACKTOP := by
      simp only [UTrapframe.size] at hhi
      omega
    obtain ⟨-, -, hwritable⟩ := excStack_congr (s := s) hlo hlt pg 0
    have hfirst := hdel.writable 0 (by decide)
    have hzero : frameVa (s.envs e).envTf.tfEsp + BitVec.ofNat 32 0
        = frameVa (s.envs e).envTf.tfEsp := BitVec.add_zero _
    rw [hzero, hwritable, hw] at hfirst
    cases hfirst
  · exact not_faultKilled faultVa hend hkilled

/-- A page fault taken in user mode is handled exactly if there is no upcall, or if the stack
pointer is in the guard page only when the exception stack may not be written to, and an exception
stack that is used and passes the check may be written to. -/
theorem pageFaultHandler_handled_iff (hfits : s.Fits avail own)
    (huser : (s.envs e).envTf.tfCs &&& 3 = 3) :
  FaultHandled held e pg faultVa ((s.envs e).envPgfaultUpcall = 0
      ∨ ¬ FrameFits (s.envs e).envTf.tfEsp ∨ s.userWritable pg excStack = false) s ↔
    (s.envs e).envPgfaultUpcall = 0 ∨
      ((InGuard (s.envs e).envTf.tfEsp → s.userWritable pg excStack = false) ∧
        (¬ NoRoom (s.envs e).envTf.tfEsp → s.Passes pg (PTE_W ||| PTE_U ||| PTE_P) excStack →
          s.userWritable pg excStack = true))
  := by
  have hlive : s.Live e := ⟨e.isLt, (Kernel.pgdir_eq_some hpg).1⟩
  by_cases hwhy : (s.envs e).envPgfaultUpcall = 0 ∨ NoRoom (s.envs e).envTf.tfEsp
  · -- the environment is destroyed at once
    have hkilled : FaultKilled held e faultVa s := by
      use s.userMemCheckAddr
      rw [pageFaultHandler_destroys hcur faultVa huser hwhy]
      exact envDestroy_kills h hcur hlive hfits
    constructor
    · rintro (⟨s', heq, hdel⟩ | ⟨-, hreason⟩)
      · have hcur' : s'.curenv = some e.val := by rw [hdel.resumed]; rfl
        exact (not_faultKilled faultVa (Or.inl ⟨s', heq, hcur'⟩) hkilled).elim
      · obtain hzero | hfit | hno := hreason
        · exact Or.inl hzero
        · obtain hzero | hroom := hwhy
          · exact Or.inl hzero
          · exact Or.inr ⟨fun hguard => (hfit hguard.frameFits.1).elim,
              fun hnot => (hnot hroom).elim⟩
        · obtain hzero | hroom := hwhy
          · exact Or.inl hzero
          · exact Or.inr ⟨fun _ => hno, fun hnot => (hnot hroom).elim⟩
    · rintro (hzero | ⟨hguard, -⟩)
      · exact Or.inr ⟨hkilled, Or.inl hzero⟩
      · obtain hzero | hroom := hwhy
        · exact Or.inr ⟨hkilled, Or.inl hzero⟩
        · obtain hin | hfit := noRoom_cases hroom
          · exact Or.inr ⟨hkilled, Or.inr (Or.inr (hguard hin))⟩
          · exact Or.inr ⟨hkilled, Or.inr (Or.inl hfit)⟩
  -- the frame is pushed if the exception stack passes the check
  rw [not_or] at hwhy
  obtain ⟨hupcall, hroom⟩ := hwhy
  have hguard : ¬ InGuard (s.envs e).envTf.tfEsp := fun hin => hroom hin.frameFits.2
  obtain ⟨hpushed, hkilled⟩ :=
    pageFaultHandler_checked h hpg hcur faultVa hfits huser hupcall hroom
  by_cases hpass : s.Passes pg (PTE_W ||| PTE_U ||| PTE_P) excStack
  · cases hw : s.userWritable pg excStack with
    | true =>
        exact iff_of_true (Or.inl ((hpushed hpass).1 hw))
          (Or.inr ⟨fun hin => (hguard hin).elim, fun _ _ => rfl⟩)
    | false =>
        refine iff_of_false (not_handled_of_passes h hpg hcur faultVa hfits huser hupcall hroom hpass
          hw _) ?_
        rintro (hzero | ⟨-, hall⟩)
        · exact hupcall hzero
        · cases hall hroom hpass
  · refine iff_of_true (Or.inr ⟨hkilled hpass, Or.inr (Or.inr ?_)⟩)
      (Or.inr ⟨fun hin => (hguard hin).elim, fun _ hyes => (hpass hyes).elim⟩)
    by_contra hw
    rw [Bool.not_eq_false] at hw
    exact hpass (passes_of_writable h hpg hw)

end Handler

/-! ### Two page faults -/

/-- The environment `e` has an upcall, and its stack pointer is `esp`. -/
def Kernel.faulting (s : Kernel) (e : Nat) (esp upcall : Word) : Kernel :=
  s.setEnv e { s.envs e with
    envTf := { (s.envs e).envTf with tfEsp := esp }
    envPgfaultUpcall := upcall }

/-- An environment whose exception stack is mapped with the flags `perm` takes a page fault. -/
structure FaultingOn (perm : Word) (avail : Finset Nat) (e : Fin NENV) (pg : Nat)
    (esp upcall : Word) (s : Kernel) : Prop where
  wf : Wf avail ∅ (fun _ => 0) s
  fits : s.Fits avail (fun _ => 0)
  curenv : s.curenv = some e.val
  pgdir : s.pgdir e = some pg
  user : (s.envs e).envTf.tfCs &&& 3 = 3
  esp : (s.envs e).envTf.tfEsp = esp
  upcall : (s.envs e).envPgfaultUpcall = upcall
  entries : ∃ t < 2 ^ 20, ∃ p < 2 ^ 20,
    s.entries pg excStack = some (tableEntry t, page2pa p ||| perm ||| PTE_P)

/-- An environment with an exception stack it may write to takes a page fault. -/
structure Faulting (avail : Finset Nat) (e : Fin NENV) (pg : Nat) (esp upcall : Word)
    (s : Kernel) : Prop where
  wf : Wf avail ∅ (fun _ => 0) s
  fits : s.Fits avail (fun _ => 0)
  curenv : s.curenv = some e.val
  pgdir : s.pgdir e = some pg
  user : (s.envs e).envTf.tfCs &&& 3 = 3
  esp : (s.envs e).envTf.tfEsp = esp
  upcall : (s.envs e).envPgfaultUpcall = upcall
  writable : s.userWritable pg excStack = true

/-- Flags that were added are there. -/
theorem or_and_flags {w p m : Word} (h : p &&& m = m) :
  (w ||| p) &&& m = m
  := by
  rw [BitVec.and_or_distrib_right, h]
  apply BitVec.eq_of_getLsbD_eq
  intro i _
  simp only [BitVec.getLsbD_and, BitVec.getLsbD_or]
  cases m.getLsbD i with
  | false => simp
  | true => simp

/-- It can be reached from boot, with any flags a page may be mapped with and any stack pointer. -/
theorem faultingOn_ok (perm : Word) (hperm : ProperPerm perm) (hlt : perm.toNat < 4096)
    (esp upcall : Word) :
  ∃ (e : Fin NENV) (pg : Nat) (s : Kernel), FaultingOn perm (bootAvail 4) e pg esp upcall s
  := by
  obtain ⟨s0, s1, -, -, h⟩ := firstPage_ok excStack perm (by decide) hperm
  have hlive : (s1.envs 0).envStatus ≠ .ENV_FREE := by
    rw [h.running]
    simp
  obtain ⟨fl, hfl⟩ := h.wf.env
  obtain ⟨pg, henvpg, hpg⟩ := Kernel.Live.pgdir ⟨by decide, hlive⟩ hfl
  obtain ⟨hnew, -⟩ := h.new 0 (by decide) hlive
  have hpg' : (s1.faulting 0 esp upcall).pgdir 0 = s1.pgdir 0 := by
    rw [Kernel.faulting, Kernel.setEnv_pgdir, if_neg hlive, Kernel.pgdir, if_neg hlive]
  obtain ⟨-, -, -, hslots⟩ := Kernel.setEnv_views hpg'
  refine ⟨⟨0, by decide⟩, pg, s1.faulting 0 esp upcall, ?_⟩
  constructor
  case wf => exact h.wf.setEnv hlive hlive rfl
  case fits =>
    intro p hp
    rw [Kernel.refs, Kernel.faulting, hslots]
    exact h.fits p hp
  case curenv => exact h.curenv
  case pgdir => exact hpg'.trans hpg
  case user =>
    rw [Kernel.faulting, Kernel.setEnv_envs_self]
    have hcs : (s1.envs 0).envTf.tfCs = initialTf.tfCs := congrArg Privilege.cs hnew
    simp only
    rw [hcs]
    decide
  case esp => rw [Kernel.faulting, Kernel.setEnv_envs_self]
  case upcall => rw [Kernel.faulting, Kernel.setEnv_envs_self]
  case entries =>
    obtain ⟨p, hp, hpte, -⟩ := h.mapped
    obtain ⟨t, ht, hpde⟩ := h.table
    refine ⟨t, ht, p, hp, ?_⟩
    rw [← hpde, ← hpte]
    exact entries_of_refOf hlive henvpg (by rw [hpte]; exact refOf_mk hp hlt)

/-- It can be reached from boot with an exception stack that may be written to. -/
theorem faulting_ok (esp upcall : Word) :
  ∃ (e : Fin NENV) (pg : Nat) (s : Kernel), Faulting (bootAvail 4) e pg esp upcall s
  := by
  obtain ⟨e, pg, s, h⟩ := faultingOn_ok (PTE_P ||| PTE_U ||| PTE_W) (by decide) (by decide)
    esp upcall
  refine ⟨e, pg, s, h.wf, h.fits, h.curenv, h.pgdir, h.user, h.esp, h.upcall, ?_⟩
  obtain ⟨t, -, p, -, hent⟩ := h.entries
  have hor : ∀ x : Word, x ||| PTE_P ||| PTE_W ||| PTE_U = x ||| (PTE_P ||| PTE_W ||| PTE_U) := by
    intro x
    rw [BitVec.or_assoc, BitVec.or_assoc, BitVec.or_assoc]
  rw [Kernel.userWritable, Kernel.allows, hent]
  simp only [decide_eq_true_eq]
  constructor
  · rw [tableEntry, hor]
    exact or_and_flags (by decide)
  · rw [BitVec.or_assoc]
    exact or_and_flags (by decide)

/-- With its stack pointer on the normal stack, the page fault is handled. -/
theorem pageFaultHandler_handled_faulting :
  ∃ (e : Fin NENV) (pg : Nat) (s : Kernel),
    Faulting (bootAvail 4) e pg 0xEEBFDF00 0x00800020 s
    ∧ FaultHandled ∅ e pg 0x00001000 ((s.envs e).envPgfaultUpcall = 0
      ∨ ¬ FrameFits (s.envs e).envTf.tfEsp ∨ s.userWritable pg excStack = false) s
  := by
  obtain ⟨e, pg, s, h⟩ := faulting_ok 0xEEBFDF00 0x00800020
  refine ⟨e, pg, s, h, (pageFaultHandler_handled_iff h.wf h.pgdir h.curenv 0x00001000 h.fits
    h.user).mpr (Or.inr ⟨?_, fun _ _ => h.writable⟩)⟩
  rw [h.esp]
  intro hguard
  exact absurd hguard.1 (by decide)

/-- With an exception stack that is only readable, the check lets it pass, and the page fault is
not handled. -/
theorem not_pageFaultHandler_handled :
  ¬ ∀ (avail held : Finset Nat) (own : Nat → Nat) (s : Kernel) (e : Fin NENV) (pg : Nat)
    (faultVa : Word), Wf avail held own s → s.Fits avail own → s.curenv = some e.val →
    s.pgdir e = some pg → (s.envs e).envTf.tfCs &&& 3 = 3 →
    FaultHandled held e pg faultVa ((s.envs e).envPgfaultUpcall = 0
      ∨ ¬ FrameFits (s.envs e).envTf.tfEsp ∨ s.userWritable pg excStack = false) s
  := by
  intro hall
  obtain ⟨e, pg, s, h⟩ :=
    faultingOn_ok (PTE_P ||| PTE_U) (by decide) (by decide) 0xEEBFDF00 0x00800020
  obtain ⟨t, -, p, -, hent⟩ := h.entries
  obtain ⟨hdir, htable, -⟩ := entries_refOf hent
  have hflags : ∀ b : Word, 0xFFF &&& b = b →
      (page2pa p ||| (PTE_P ||| PTE_U) ||| PTE_P) &&& b = (PTE_P ||| PTE_U) &&& b := by
    intro b hb
    have hlow : (page2pa p ||| (PTE_P ||| PTE_U) ||| PTE_P) &&& 0xFFF = PTE_P ||| PTE_U :=
      flags_mk p (by decide) (by decide)
    rw [← hb, ← BitVec.and_assoc, hlow, ← BitVec.and_assoc]
    rfl
  have hpass : s.Passes pg (PTE_W ||| PTE_U ||| PTE_P) excStack := by
    refine ⟨_, hdir, by decide, ?_⟩
    rw [htable, hflags _ (by decide)]
    decide
  have hread : s.userWritable pg excStack = false := by
    rw [Kernel.userWritable, Kernel.allows, hent]
    simp only [decide_eq_false_iff_not]
    rintro ⟨-, hpt⟩
    rw [hflags _ (by decide)] at hpt
    exact absurd hpt (by decide)
  exact not_handled_of_passes h.wf h.pgdir h.curenv 0x00001000 h.fits h.user
    (by rw [h.upcall]; decide) (by rw [h.esp]; decide) hpass hread _
    (hall _ _ _ s e pg 0x00001000 h.wf h.fits h.curenv h.pgdir h.user)

end Jos
