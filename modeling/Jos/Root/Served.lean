import Jos.Root.Guest
import Jos.Root.Replace
import Jos.Root.Trap

/-!
# What a trap does

A trap taken in user mode by an environment ends with an environment that goes on, or with a
processor that waits.  Before, the kernel has done one of a few things, which are listed once for
all: it edits page table entries, creates, loads or frees an environment, changes a record, or
writes a frame for a page fault.
-/

namespace Jos

namespace Root

open Bytes Prog

variable {avail avail' : Finset Nat} {cur : Fin NENV} {s s' s'' : Kernel} {g g' : Host}
  {α : Type}

/-! ### What is asked for -/

/-- Whether the environment `e` has trapped to ask for the system call `sys`. -/
structure Asks (s : Kernel) (e : Nat) (sys : Syscall) : Prop where
  trapno : (s.envs e).envTf.tfTrapno = T_SYSCALL
  syscallno : Syscall.ofWord (s.envs e).envTf.tfRegs.regEax = some sys

/-- The arguments of a system call. -/
def arg1 (s : Kernel) (e : Nat) : Word := (s.envs e).envTf.tfRegs.regEdx
def arg2 (s : Kernel) (e : Nat) : Word := (s.envs e).envTf.tfRegs.regEcx
def arg3 (s : Kernel) (e : Nat) : Word := (s.envs e).envTf.tfRegs.regEbx
def arg4 (s : Kernel) (e : Nat) : Word := (s.envs e).envTf.tfRegs.regEdi
def arg5 (s : Kernel) (e : Nat) : Word := (s.envs e).envTf.tfRegs.regEsi

/-! ### What is done -/

/-- From `s`, in which the registers of the environment `cur` are saved, the kernel has done what
the trap asks for. The pages `avail` become others when a guest is made. -/
inductive Handled (avail : Finset Nat) (cur : Fin NENV) (s : Kernel) : Finset Nat → Kernel → Prop
  | aside {s' : Kernel} (h : Aside s s') : Handled avail cur s avail s'
  | pageAlloc {envid va perm r : Word} {s' : Kernel}
    (h : PageAllocDone ∅ cur envid va perm s r s') : Handled avail cur s avail s'
  | pageMap {srcenvid srcva dstenvid dstva perm r : Word} {s' : Kernel}
    (h : PageMapDone ∅ cur srcenvid srcva dstenvid dstva perm s r s') : Handled avail cur s avail s'
  | pageUnmap {envid va r : Word} {s' : Kernel} (h : PageUnmapDone ∅ cur envid va s r s') :
    Handled avail cur s avail s'
  | send {envid value srcva perm r : Word} {s' : Kernel}
    (h : SendDone ∅ cur envid value srcva perm s r s') : Handled avail cur s avail s'
  | fork {s' : Kernel} (h : ExoforkDone cur s s') : Handled avail cur s avail s'
  | status {e : Nat} {st : EnvStatus} (hask : Asks s cur .SYS_env_set_status)
    (hfind : s.findEnv cur (arg1 s cur) true = some e) (hst : statusOfWord (arg2 s cur) = some st) :
    Handled avail cur s avail (s.setEnv e { s.envs e with envStatus := st })
  | upcall {e : Nat} {func : Word} (hlive : s.Live e) :
    Handled avail cur s avail (s.setEnv e { s.envs e with envPgfaultUpcall := func })
  | wait (dstva : Word) : Handled avail cur s avail (waiting s cur dstva)
  | replace {x : Word} {s' : Kernel} (h : ReplaceDone avail cur x s s') :
    Handled avail cur s avail s'
  | create {s' : Kernel} (h : CreateDone avail s s') : Handled avail cur s avail s'
  | guestFailed {s' : Kernel} (h : GuestFailed s s') : Handled avail cur s avail s'
  | guestMade {e : Fin NENV} {p a b : Nat} {entryloc : Word} {s' : Kernel}
    (h : GuestMade e p a b (s.envs cur).envId entryloc s s') :
    Handled avail cur s ((avail.erase a).erase b) s'
  | destroy {e : Fin NENV} {s' : Kernel} (h : Destroyed ∅ e s s') : Handled avail cur s avail s'
  | exit {s1 s' : Kernel} (ha : Aside s s1) (h : Freed ∅ cur s1 s') :
    Handled avail cur s avail { s' with curenv := none }
  | fault {e : Fin NENV} {s1 s2 : Kernel} {esp eip : Word} (ha : Aside s s1)
    (hst : UserStored e s1 s2) :
    Handled avail cur s avail (s2.setEnv cur { s2.envs cur with
      envTf := { (s2.envs cur).envTf with
        tfEsp := esp
        tfEip := eip } })

/-- The kernel after the environment `cur` has got the value `r` of a system call. -/
def answered (s : Kernel) (cur : Nat) (r : Word) : Kernel :=
  s.setEnv cur { s.envs cur with
    envTf := { (s.envs cur).envTf with
      tfRegs := { (s.envs cur).envTf.tfRegs with regEax := r } } }

/-- What the kernel has done before it returns to the environment `cur`. -/
structure Returned (avail : Finset Nat) (cur : Fin NENV) (s : Kernel) (avail' : Finset Nat)
    (s' : Kernel) : Prop where
  handled : Handled avail cur s avail' s'
  wf : Wf avail' ∅ s'
  live : s'.Live cur

/-- What the kernel has done before it goes on with some environment. -/
def Resumes (avail : Finset Nat) (cur : Fin NENV) (s : Kernel) (s'' : Kernel) : Prop :=
  ∃ avail' s', Handled avail cur s avail' s' ∧ Resumed s' s'' ∧ Wf avail' ∅ s''

/-- How a procedure ends that does what a trap asks for. -/
def Serves (avail : Finset Nat) (cur : Fin NENV) (m : Prog Host α) (g : Host) : Prop :=
  m.MayEnd g (fun _ g' => ∃ avail', Returned avail cur g.kernel avail' g'.kernel)
    (fun g' => Resumes avail cur g.kernel g'.kernel)

/-! ### Procedures of the kernel -/

theorem mayEnd_onKernel {m : Prog Kernel α} {Q : α → Host → Prop} {L : Host → Prop}
    (h : m.MayEnd g.kernel (fun a s' => Q a { g with kernel := s' })
      (fun s' => L { g with kernel := s' })) :
  (onKernel m).MayEnd g Q L
  := by
  apply mayEnd_intro
  · intro a g' heq
    rw [onKernel] at heq
    cases hm : m g.kernel with
    | ok r =>
        rw [hm] at heq
        obtain ⟨rfl, rfl⟩ := Prod.mk.inj (Except.ok.inj heq)
        exact h.of_eq hm
    | error e =>
        rw [hm] at heq
        cases e with
        | panic msg => cases heq
        | fault addr => cases heq
        | leave s' => cases heq
  · intro g' heq
    rw [onKernel] at heq
    cases hm : m g.kernel with
    | ok r =>
        rw [hm] at heq
        cases heq
    | error e =>
        rw [hm] at heq
        cases e with
        | panic msg => cases heq
        | fault addr => cases heq
        | leave s' =>
            have hg : { g with kernel := s' } = g' := by
              injection heq with heq
              injection heq
            rw [← hg]
            exact h.of_leave hm

/-- A procedure of the kernel serves a trap when each of its endings does. -/
theorem serves_onKernel {m : Prog Kernel α} {Q : α → Kernel → Prop} {L : Kernel → Prop}
    (h : m.MayEnd g.kernel Q L)
    (hQ : ∀ a s', Q a s' → ∃ avail', Returned avail cur g.kernel avail' s')
    (hL : ∀ s', L s' → Resumes avail cur g.kernel s') :
  Serves avail cur (onKernel m) g
  := by
  apply mayEnd_onKernel
  exact h.mono hQ hL

/-! ### Who is live -/

theorem live_of_envs {e : Nat} (h : s'.envs = s.envs) (hlive : s.Live e) :
  s'.Live e
  := by
  rw [Kernel.Live, h]
  exact hlive

/-- Setting an environment to a live one keeps those live that are. -/
theorem live_setEnv {e e' : Nat} {env : Env} (hst : env.envStatus ≠ .ENV_FREE) (hlive : s.Live e') :
  (s.setEnv e env).Live e'
  := by
  use hlive.1
  by_cases he : e' = e
  · rw [he, s.setEnv_envs_self]
    exact hst
  · rw [s.setEnv_envs_of_ne _ he]
    exact hlive.2

/-- The other environments are live that were. -/
theorem live_of_update {e e' : Nat} {env : Env} (h : s'.envs = Function.update s.envs e env)
    (he : e' ≠ e) (hlive : s.Live e') :
  s'.Live e'
  := by
  rw [Kernel.Live, h, Function.update_of_ne he]
  exact hlive

/-! ### System calls -/

/-- An environment that was destroyed is the current one if another one goes on. -/
theorem resumes_of_destroyedSelf {e : Fin NENV} {s1 : Kernel} (he : e.val = cur)
    (ha : Aside s s1) (hd : DestroyedSelf ∅ e s1 s'') (hwf : Wf avail ∅ s'') :
  Resumes avail cur s s''
  := by
  obtain ⟨s2, hfreed, -, hres⟩ := hd
  obtain rfl : e = cur := Fin.ext he
  exact ⟨avail, _, .exit ha hfreed, hres, hwf⟩

section Handlers

variable {binary : Program → Binary} (hlink : ∀ p, Linked (binary p)) (hs : Wf avail ∅ g.kernel)
  (hfits : Fits avail g.kernel) (hcur : g.kernel.curenv = some cur.val) (hlive : g.kernel.Live cur)

include hs hlive in
theorem serves_aside {m : Prog Kernel α} (hm : Keeps Aside m) :
  Serves avail cur (onKernel m) g
  := by
  apply serves_onKernel (hm g.kernel)
  · intro _ s' ha
    use avail
    exact ⟨.aside ha, hs.aside ha, live_of_envs ha.envs hlive⟩
  · exact fun _ h => h.elim

include hlink hs hfits hcur hlive in
/-- A system call does one of the things listed, if `sys_envreplace` pushes its arguments below
`UTOP`. -/
theorem handler_serves {sys : Syscall} (hask : Asks g.kernel cur sys)
    (hesp : sys = .SYS_envreplace → Program.ofInt (arg1 g.kernel cur) ≠ none →
      StackBelow g.kernel cur) :
  Serves avail cur (sys.handler binary (arg1 g.kernel cur) (arg2 g.kernel cur) (arg3 g.kernel cur)
    (arg4 g.kernel cur) (arg5 g.kernel cur)) g
  := by
  have hrefl : Aside g.kernel g.kernel := Aside.composes.refl _
  cases sys with
  | SYS_cputs =>
      have hd := sysCputs_done hs hfits hcur hlive (arg1 g.kernel cur) (arg2 g.kernel cur)
      apply serves_onKernel (hd.then_pure (0 : Word))
      · rintro _ s' ⟨hwf, ha⟩
        use avail
        exact ⟨.aside ha, hwf, live_of_envs ha.envs hlive⟩
      · rintro s' ⟨hwf, e, s1, he, ha, hd⟩
        exact resumes_of_destroyedSelf he ha hd hwf
  | SYS_cgetc => exact serves_aside hs hlive Aside.consGetc
  | SYS_getenvid =>
      apply serves_onKernel (Q := fun _ s' => s' = g.kernel) (L := fun _ => False)
      · rw [sysGetenvid, mayEnd_of_bind_eq (curenv_eq hcur), mayEnd_bind, mayEnd_get, mayEnd_pure]
      · rintro r s' rfl
        use avail
        exact ⟨.aside hrefl, hs, hlive⟩
      · exact fun _ h => h.elim
  | SYS_env_destroy =>
      apply serves_onKernel (sysEnvDestroy_done hs hfits hcur hlive _)
      · rintro r s' ⟨hwf, hd⟩
        use avail
        obtain ⟨-, rfl⟩ | ⟨e, -, -, hd⟩ := hd
        · exact ⟨.aside hrefl, hwf, hlive⟩
        · refine ⟨.destroy hd, hwf, ?_⟩
          cases hd with
          | dying _ _ => exact live_setEnv (by simp) hlive
          | freed hfreed hother =>
              apply live_of_update hfreed.envs _ hlive
              rintro hce
              exact hother (hce ▸ hcur)
      · rintro s' ⟨hwf, e, he, hd⟩
        exact resumes_of_destroyedSelf he hrefl hd hwf
  | SYS_page_alloc =>
      apply serves_onKernel (sysPageAlloc_done hs hfits hcur hlive _ _ _)
      · rintro r s' ⟨hwf, hd⟩
        use avail
        refine ⟨.pageAlloc hd, hwf, ?_⟩
        obtain ⟨-, hedit, -⟩ | ⟨_, _, _, -, -, -, -, -, hedit, -⟩ := hd
        · exact live_of_envs hedit.quiet.envs hlive
        · exact live_of_envs hedit.quiet.envs hlive
      · exact fun _ h => h.elim
  | SYS_page_map =>
      apply serves_onKernel (sysPageMap_done hs hfits hcur hlive _ _ _ _ _)
      · rintro r s' ⟨hwf, hd⟩
        use avail
        refine ⟨.pageMap hd, hwf, ?_⟩
        obtain ⟨-, rfl⟩ | ⟨_, _, _, _, -, -, -, -, -, -, -, -, hedit⟩ := hd
        · exact hlive
        · exact live_of_envs hedit.quiet.envs hlive
      · exact fun _ h => h.elim
  | SYS_page_unmap =>
      apply serves_onKernel (sysPageUnmap_done hs hfits hcur hlive _ _)
      · rintro r s' ⟨hwf, hd⟩
        use avail
        refine ⟨.pageUnmap hd, hwf, ?_⟩
        obtain ⟨-, rfl⟩ | ⟨_, _, -, -, -, hedit⟩ := hd
        · exact hlive
        · exact live_of_envs hedit.quiet.envs hlive
      · exact fun _ h => h.elim
  | SYS_exofork =>
      apply serves_onKernel (sysExofork_done hs hcur hlive)
      · rintro r s' ⟨hwf, hd⟩
        use avail
        refine ⟨.fork hd, hwf, ?_⟩
        obtain rfl | ⟨e, p, parentId, s1, hc, rfl⟩ := hd
        · exact hlive
        · apply live_setEnv (by simp)
          apply live_of_update hc.envs _ hlive
          rintro hce
          exact hlive.2 (hce ▸ hc.free)
      · exact fun _ h => h.elim
  | SYS_env_set_status =>
      apply serves_onKernel (sysEnvSetStatus_done hs hcur hlive _ _)
      · rintro r s' ⟨hwf, hd⟩
        use avail
        obtain rfl | ⟨e, st, hfind, hst, rfl⟩ := hd
        · exact ⟨.aside hrefl, hwf, hlive⟩
        · refine ⟨.status hask hfind hst, hwf, live_setEnv ?_ hlive⟩
          rw [statusOfWord] at hst
          split_ifs at hst
          · obtain rfl := Option.some.inj hst
            simp
          · obtain rfl := Option.some.inj hst
            simp
      · exact fun _ h => h.elim
  | SYS_env_set_pgfault_upcall =>
      apply serves_onKernel (sysEnvSetPgfaultUpcall_done hs hcur hlive _ _)
      · rintro r s' ⟨hwf, hd⟩
        use avail
        obtain rfl | ⟨e, helive, rfl⟩ := hd
        · exact ⟨.aside hrefl, hwf, hlive⟩
        · exact ⟨.upcall helive, hwf, live_setEnv helive.2 hlive⟩
      · exact fun _ h => h.elim
  | SYS_yield =>
      have hd := sysYield_done hs
      apply serves_onKernel (hd.then_pure (0 : Word))
      · exact fun _ _ h => h.elim
      · rintro s' ⟨hwf, hres⟩
        exact ⟨avail, _, .aside hrefl, hres, hwf⟩
  | SYS_ipc_try_send =>
      apply serves_onKernel (sysIpcTrySend_done hs hfits hcur hlive _ _ _ _)
      · rintro r s' ⟨hwf, hd⟩
        use avail
        refine ⟨.send hd, hwf, ?_⟩
        cases hd with
        | refused _ => exact hlive
        | value _ _ _ => exact live_setEnv (by simp) hlive
        | page _ _ _ _ _ _ _ _ _ hedit =>
            exact live_setEnv (by simp) (live_of_envs hedit.quiet.envs hlive)
      · exact fun _ h => h.elim
  | SYS_ipc_recv =>
      apply serves_onKernel (sysIpcRecv_done hs hcur hlive _)
      · rintro r s' rfl
        use avail
        exact ⟨.aside hrefl, hs, hlive⟩
      · rintro s' ⟨hwf, hres⟩
        exact ⟨avail, _, .wait _, hres, hwf⟩
  | SYS_envcreate =>
      apply serves_onKernel (sysEnvcreate_done hlink hs hfits)
      · rintro r s' ⟨hwf, -, hd⟩
        use avail
        refine ⟨.create hd, hwf, ?_⟩
        obtain ⟨e, p, s1, -, -, hc, hl⟩ := hd
        apply (hl.live cur).mpr
        apply live_of_update hc.envs _ hlive
        rintro hce
        exact hlive.2 (hce ▸ hc.free)
      · exact fun _ h => h.elim
  | SYS_envreplace =>
      have hd := sysEnvreplace_done hlink hs hfits hcur hlive (hesp rfl) (arg2 g.kernel cur)
        (arg3 g.kernel cur)
      apply serves_onKernel hd
      · rintro r s' ⟨-, hwf, -, hd⟩
        use avail
        refine ⟨.replace hd, hwf, ?_⟩
        cases hd with
        | unknown _ => exact hlive
        | loaded _ hl => exact (hl.live cur).mpr hlive
      · exact fun _ h => h.elim
  | SYS_envmakeguest =>
      rw [Serves, Syscall.handler]
      obtain ⟨-, r, g', heq, hr, hwf⟩ | ⟨-, e, p, a, b, g', heq, hmade, hwf⟩ :=
        sysEnvMakeguest_ok hs hcur (arg1 g.kernel cur) (arg2 g.kernel cur)
      · rw [mayEnd_of_eq heq]
        use avail
        obtain ⟨-, hsame⟩ | ⟨-, hfailed⟩ := hr
        · rw [hsame] at hwf ⊢
          exact ⟨.aside hrefl, hwf, hlive⟩
        · refine ⟨.guestFailed hfailed, hwf, ?_⟩
          obtain ⟨e, pg, hfree, hq⟩ := hfailed.quiet
          apply live_of_update (by rw [hq]) _ hlive
          rintro hce
          exact hlive.2 (hce ▸ hfree)
      · rw [mayEnd_of_eq heq]
        use (avail.erase a).erase b
        refine ⟨.guestMade hmade, hwf, ?_⟩
        apply live_of_update hmade.envs _ hlive
        rintro hce
        exact hlive.2 (hce ▸ hmade.free)

end Handlers

/-! ### Page faults -/

/-- The frame lies below `UTOP`. -/
theorem utfVa_lt (esp : Word) {i : Nat} (hi : i < UTrapframe.size) :
  (utfVa esp + BitVec.ofNat 32 i).toNat < UTOP
  := by
  have hlt := esp.isLt
  have hfour : BitVec.toNat (4 : Word) = 4 := rfl
  simp only [UTrapframe.size] at hi
  unfold utfVa
  split
  case isTrue hon =>
    rw [BitVec.toNat_add, BitVec.toNat_sub, BitVec.toNat_sub]
    simp only [UXSTACKTOP, UTOP, UENVS, UPAGES, UVPT, ULIM, MMIOBASE, MMIOLIM, KSTACKTOP, KERNBASE,
      PTSIZE, PGSIZE, UTrapframe.size, BitVec.toNat_ofNat] at hon ⊢
    omega
  case isFalse =>
    rw [BitVec.toNat_add, BitVec.toNat_sub]
    simp only [UXSTACKTOP, UTOP, UENVS, UPAGES, UVPT, ULIM, MMIOBASE, MMIOLIM, KSTACKTOP, KERNBASE,
      PTSIZE, UTrapframe.size, BitVec.toNat_ofNat]
    omega

section Stores

variable {e : Fin NENV} {dir : Nat} (hs : Wf avail ∅ s) (hdir : s.pgdir e = some dir)
include hs hdir

/-- A byte is written to a page that the environment may write to, or the kernel faults. -/
theorem kernStore_stored (hst : UserStored e s s') {va : Word} (hva : va.toNat < UTOP) (b : Byte) :
  (kernStore dir va b).MayEnd s' (fun _ s'' => UserStored e s s'') (fun _ => False)
  := by
  obtain ⟨l, hl⟩ := hs.mem
  have hwf := hst.wf hs
  have hdir' : s'.pgdir e = some dir := by
    rw [(hst.sameTables hl).pgdir]
    exact hdir
  by_cases hw : Writable (s'.pteAt e va)
  · obtain ⟨s'', heq, hst'⟩ := kernStore_ok hwf hdir' hva hw b
    rw [mayEnd_of_eq heq]
    exact hst.trans hl hst'
  · apply mayEnd_intro
    · intro _ s'' heq
      rw [kernStore_fault hwf hdir' hva hw b] at heq
      cases heq
    · intro s'' heq
      rw [kernStore_fault hwf hdir' hva hw b] at heq
      cases heq

theorem kernStore32_stored (hst : UserStored e s s') {va : Word}
    (hva : ∀ i < 4, (va + BitVec.ofNat 32 i).toNat < UTOP) (w : Word) :
  (kernStore32 dir va w).MayEnd s' (fun _ s'' => UserStored e s s'') (fun _ => False)
  := by
  have h0 : va.toNat < UTOP := by
    have h := hva 0 (by decide)
    rwa [show va + BitVec.ofNat 32 0 = va by simp] at h
  rw [kernStore32, mayEnd_bind]
  apply (kernStore_stored hs hdir hst h0 _).mono _ (fun _ h => h)
  intro _ s1 h1
  rw [mayEnd_bind]
  apply (kernStore_stored hs hdir h1 (hva 1 (by decide)) _).mono _ (fun _ h => h)
  intro _ s2 h2
  rw [mayEnd_bind]
  apply (kernStore_stored hs hdir h2 (hva 2 (by decide)) _).mono _ (fun _ h => h)
  intro _ s3 h3
  exact kernStore_stored hs hdir h3 (hva 3 (by decide)) _

theorem kernStoreWords_stored (ws : List Word) {va : Word} (hst : UserStored e s s')
    (hva : ∀ i < 4 * ws.length, (va + BitVec.ofNat 32 i).toNat < UTOP) :
  (kernStoreWords dir va ws).MayEnd s' (fun _ s'' => UserStored e s s'') (fun _ => False)
  := by
  induction ws generalizing va s' with
  | nil =>
      rw [kernStoreWords, mayEnd_pure]
      exact hst
  | cons w ws ih =>
      rw [kernStoreWords, mayEnd_bind]
      apply (kernStore32_stored hs hdir hst (fun i hi => hva i (by simp; omega)) w).mono _
        (fun _ h => h)
      intro _ s1 h1
      apply ih h1
      intro i hi
      have h := hva (i + 4) (by simp; omega)
      rwa [show va + BitVec.ofNat 32 (i + 4) = va + 4 + BitVec.ofNat 32 i by
        rw [BitVec.ofNat_add, BitVec.add_assoc, BitVec.add_comm (BitVec.ofNat 32 i)]
        rfl] at h

end Stores

section Traps

variable {binary : Program → Binary} {dir : Nat} {faultVa : Word} (hlink : ∀ p, Linked (binary p))
  (hs : Wf avail ∅ g.kernel) (hfits : Fits avail g.kernel)
  (hcur : g.kernel.curenv = some cur.val) (hlive : g.kernel.Live cur)
  (hdir : ∃ e : Fin NENV, g.kernel.pgdir e = some dir)

include hs hfits hcur hlive hdir in
/-- A page fault is delivered, or the environment is destroyed. -/
theorem pageFaultHandler_serves :
  Serves avail cur (onKernel (pageFaultHandler dir faultVa)) g
  := by
  have hdestroyed : (envDestroy cur).MayEnd g.kernel
      (fun _ _ => False) (fun s' => Resumes avail cur g.kernel s') := by
    apply (envDestroy_ends hs hlive hfits).mono
    · rintro _ s' ⟨hd, -⟩
      cases hd with
      | dying _ hother => exact hother hcur
      | freed _ hother => exact hother hcur
    · rintro s' ⟨hd, hwf⟩
      exact resumes_of_destroyedSelf rfl (Aside.composes.refl _) hd hwf
  apply serves_onKernel (Q := fun _ _ => False) (L := fun s' => Resumes avail cur g.kernel s') _
    (fun _ _ h => h.elim) (fun _ h => h)
  rw [pageFaultHandler, mayEnd_of_bind_eq (curenv_eq hcur), mayEnd_bind, mayEnd_get, mayEnd_ite]
  refine ⟨fun _ => mayEnd_panic _, fun _ => ?_⟩
  rw [mayEnd_ite]
  refine ⟨fun _ => ?_, fun _ => hdestroyed⟩
  rw [mayEnd_bind]
  apply (userMemAssert_done hs hfits hcur hlive _ _ _).mono
  · intro _ s1 ha
    obtain ⟨e, he⟩ := hdir
    have hwf1 := hs.aside ha
    have he1 : s1.pgdir e = some dir := by
      rw [Kernel.pgdir, ha.envs]
      exact he
    rw [mayEnd_bind]
    have hlen : 4 * (UTrapframe.ofTrap faultVa (g.kernel.envs cur).envTf).words.length
        = UTrapframe.size := rfl
    apply (kernStoreWords_stored hwf1 he1 _ (.refl e s1) (fun i hi =>
      utfVa_lt _ (hlen ▸ hi))).mono _ (fun _ h => h.elim)
    intro _ s2 hst
    have hwf2 := hst.wf hwf1
    have hcur2 : s2.curenv = some cur.val := by
      rw [hst.quiet]
      exact ha.curenv.trans hcur
    have hlive2 : s2.Live cur := by
      apply live_of_envs _ hlive
      rw [hst.quiet]
      exact ha.envs
    rw [mayEnd_bind, mayEnd_modify]
    have hrun : isCurrent (s2.setEnv cur { s2.envs cur with
        envTf := { (s2.envs cur).envTf with
          tfEsp := utfVa (g.kernel.envs cur).envTf.tfEsp
          tfEip := (s2.envs cur).envPgfaultUpcall } }) cur = true := by
      rw [isCurrent, show (s2.setEnv _ _).curenv = some cur.val from hcur2]
      simp
    rw [envRun, mayEnd_bind, mayEnd_get, if_pos hrun, mayEnd_leave]
    exact ⟨avail, _, .fault ha hst, .stay hcur2, hwf2.setEnv hlive2.2 hlive2.2 rfl⟩
  · rintro s' ⟨hwf, e, s1, he, ha, hd⟩
    exact resumes_of_destroyedSelf he ha hd hwf

include hlink hs hfits hcur hlive hdir in
/-- Every trap is handled, if `sys_envreplace` pushes its arguments below `UTOP`. What is returned
by a system call is stored afterwards. -/
theorem trapDispatch_ends
    (hesp : Asks g.kernel cur .SYS_envreplace → Program.ofInt (arg1 g.kernel cur) ≠ none →
      StackBelow g.kernel cur) :
  (trapDispatch binary dir faultVa cur).MayEnd g
    (fun _ g' => ∃ avail' s1, Returned avail cur g.kernel avail' s1
      ∧ (g'.kernel = s1 ∨ ∃ r, g'.kernel = answered s1 cur r))
    (fun g' => Resumes avail cur g.kernel g'.kernel)
  := by
  have hrefl : Aside g.kernel g.kernel := Aside.composes.refl _
  have hserves : ∀ {m : Prog Host Unit}, Serves avail cur m g → m.MayEnd g
      (fun _ g' => ∃ avail' s1, Returned avail cur g.kernel avail' s1
        ∧ (g'.kernel = s1 ∨ ∃ r, g'.kernel = answered s1 cur r))
      (fun g' => Resumes avail cur g.kernel g'.kernel) := by
    intro m hm
    apply hm.mono _ (fun _ h => h)
    rintro _ g' ⟨avail', hr⟩
    exact ⟨avail', g'.kernel, hr, Or.inl rfl⟩
  rw [trapDispatch, mayEnd_bind, mayEnd_get, mayEnd_ite]
  refine ⟨fun _ => hserves (pageFaultHandler_serves hs hfits hcur hlive hdir), fun _ => ?_⟩
  rw [mayEnd_ite]
  refine ⟨fun _ => hserves (serves_aside hs hlive (keeps_panic _)), fun _ => ?_⟩
  rw [mayEnd_ite]
  refine ⟨fun htrap => ?_, fun _ => ?_⟩
  · rw [mayEnd_bind, syscall]
    cases hsys : Syscall.ofWord (g.kernel.envs cur).envTf.tfRegs.regEax with
    | none =>
        rw [mayEnd_pure]
        apply mayEnd_onKernel
        rw [mayEnd_modify]
        exact ⟨avail, g.kernel, ⟨.aside hrefl, hs, hlive⟩, Or.inr ⟨_, rfl⟩⟩
    | some sys =>
        have hask : Asks g.kernel cur sys := ⟨htrap, hsys⟩
        apply (handler_serves hlink hs hfits hcur hlive hask (fun hsys =>
          hesp (hsys ▸ hask))).mono _ (fun _ h => h)
        rintro r g' ⟨avail', hr⟩
        apply mayEnd_onKernel
        rw [mayEnd_modify]
        exact ⟨avail', g'.kernel, hr, Or.inr ⟨r, rfl⟩⟩
  rw [mayEnd_ite]
  refine ⟨fun _ => hserves (serves_aside hs hlive (keeps_modify (fun s => ?_))), fun _ => ?_⟩
  · exact ⟨rfl, rfl, rfl, rfl, rfl, rfl, rfl, rfl⟩
  rw [mayEnd_ite]
  refine ⟨fun _ => ?_, fun _ => ?_⟩
  · rw [mayEnd_pure]
    exact ⟨avail, g.kernel, ⟨.aside hrefl, hs, hlive⟩, Or.inl rfl⟩
  rw [mayEnd_ite]
  refine ⟨fun _ => hserves ?_, fun _ => ?_⟩
  · have hyield : (do lapicEoi; schedYield : Prog Kernel Unit).MayEnd g.kernel (fun _ _ => False)
        (Resumed { g.kernel with eois := g.kernel.eois + 1 }) := by
      rw [mayEnd_bind, lapicEoi, mayEnd_modify]
      exact schedYield_resumed
    have ha : Aside g.kernel { g.kernel with eois := g.kernel.eois + 1 } :=
      ⟨rfl, rfl, rfl, rfl, rfl, rfl, rfl, rfl⟩
    apply serves_onKernel hyield
    · exact fun _ _ h => h.elim
    · exact fun s' hr => ⟨avail, _, .aside ha, hr, (hs.aside ha).resumed hr⟩
  rw [mayEnd_ite]
  refine ⟨fun _ => mayEnd_panic _, fun _ => hserves ?_⟩
  apply serves_onKernel (envDestroy_ends hs hlive hfits)
  · rintro _ s' ⟨hd, -⟩
    cases hd with
    | dying _ hother => exact (hother hcur).elim
    | freed _ hother => exact (hother hcur).elim
  · rintro s' ⟨hd, hwf⟩
    exact resumes_of_destroyedSelf rfl hrefl hd hwf

theorem afterTrap_resumed :
  afterTrap.MayEnd s (fun _ _ => False) (Resumed s)
  := by
  rw [afterTrap, mayEnd_bind, mayEnd_get]
  cases hc : s.curenv with
  | none => exact schedYield_resumed
  | some e =>
      simp only
      rw [mayEnd_ite]
      refine ⟨fun _ => ?_, fun _ => schedYield_resumed⟩
      have hrun : isCurrent s e = true := by
        rw [isCurrent, hc]
        simp
      rw [envRun, mayEnd_bind, mayEnd_get, if_pos hrun, mayEnd_leave]
      exact .stay hc

end Traps

/-- From `s` to `s'` the kernel has handled a trap with the frame `tf` of the environment `cur`. -/
inductive Trapped (avail : Finset Nat) (cur : Fin NENV) (tf : Trapframe) (s s' : Kernel) : Prop
  | dying {s1 : Kernel} (hst : (s.envs cur).envStatus = .ENV_DYING) (hfreed : Freed ∅ cur s s1)
    (hr : Resumed { s1 with curenv := none } s') : Trapped avail cur tf s s'
  | handled {avail' : Finset Nat} {s1 s2 : Kernel}
    (h : Handled avail cur (entered s cur tf) avail' s1)
    (hret : s2 = s1 ∨ ∃ r, s2 = answered s1 cur r) (hr : Resumed s2 s') : Trapped avail cur tf s s'

/-- A trap ends with an environment that goes on or with a processor that waits, and the kernel is
well formed, if `sys_envreplace` pushes its arguments below `UTOP`. -/
theorem trap_ends {binary : Program → Binary} {dir : Nat} {faultVa : Word} {tf : Trapframe}
    (hlink : ∀ p, Linked (binary p)) (hs : Wf avail ∅ g.kernel) (hfits : Fits avail g.kernel)
    (hcur : g.kernel.curenv = some cur.val) (hlive : g.kernel.Live cur)
    (hdir : ∃ e : Fin NENV, g.kernel.pgdir e = some dir)
    (hesp : Asks (entered g.kernel cur tf) cur .SYS_envreplace →
      Program.ofInt (arg1 (entered g.kernel cur tf) cur) ≠ none →
      StackBelow (entered g.kernel cur tf) cur) :
  (trap binary dir faultVa tf).MayEnd g (fun _ _ => False) (fun g' =>
    Trapped avail cur tf g.kernel g'.kernel ∧ ∃ avail', Wf avail' ∅ g'.kernel)
  := by
  have henter : g.kernel.setEnv cur { g.kernel.envs cur with envTf := tf }
      = entered g.kernel cur tf := by
    rw [entered, ← hcur]
    rfl
  rw [trap, mayEnd_bind, mayEnd_get, hcur]
  simp only
  rw [mayEnd_ite]
  constructor
  · intro hst
    apply mayEnd_onKernel
    obtain ⟨s1, heq, hfreed, hwf⟩ := envFree_ok hs hlive hfits
    rw [freeDying, mayEnd_of_bind_eq heq, mayEnd_bind, mayEnd_modify]
    apply schedYield_resumed.mono (fun _ _ h => h)
    intro s' hr
    exact ⟨.dying hst hfreed hr, avail, (hwf.setCurenv none).resumed hr⟩
  · intro _
    rw [mayEnd_bind]
    apply mayEnd_onKernel
    rw [setTf, mayEnd_modify, henter, mayEnd_bind]
    have hdir' : ∃ e : Fin NENV, (entered g.kernel cur tf).pgdir e = some dir := by
      obtain ⟨e, he⟩ := hdir
      use e
      rw [← he]
      have hpg : (g.kernel.setEnv cur { g.kernel.envs cur with envTf := tf }).pgdir cur
          = g.kernel.pgdir cur := by rw [Kernel.setEnv_pgdir, Kernel.pgdir]
      exact (Kernel.setEnv_views hpg).1 e
    have hlive' : (entered g.kernel cur tf).Live cur := by
      have h : (g.kernel.setEnv cur { g.kernel.envs cur with envTf := tf }).Live cur :=
        live_setEnv hlive.2 hlive
      exact h
    apply (trapDispatch_ends (g := { g with kernel := entered g.kernel cur tf }) hlink
      (hs.entered hlive tf) (fits_entered hfits cur tf) rfl hlive' hdir' hesp).mono
    · rintro _ g' ⟨avail', s1, ⟨hh, hwf, hlive1⟩, hret⟩
      apply mayEnd_onKernel
      apply afterTrap_resumed.mono (fun _ _ h => h)
      intro s' hr
      refine ⟨.handled hh hret hr, avail', ?_⟩
      have hwf' : Wf avail' ∅ g'.kernel := by
        obtain heq | ⟨r, heq⟩ := hret
        · rw [heq]
          exact hwf
        · rw [heq]
          exact hwf.setEnv hlive1.2 hlive1.2 rfl
      exact hwf'.resumed hr
    · rintro g' ⟨avail', s1, hh, hr, hwf⟩
      exact ⟨.handled hh (Or.inl rfl) hr, avail', hwf⟩

end Root

end Jos
