import Jos.Kern.EnvCalls
import Jos.Kern.Machine
import Jos.Kern.PageFault

/-!
# What a trap does

Every trap taken in user mode ends in one of a few ways.  A system call has returned and
an environment goes on; or it has given up the processor; or the trap was of another kind,
and the current environment goes on with other registers, goes on in its page fault
handler, or was freed.
-/

namespace Jos

open Bytes Prog

variable {s s' s'' : Kernel} {cur : Nat}

/-! ### Traps that are not system calls -/

/-- Only the console, the devices and the records of checks and accesses are different. -/
def Unmoved (s s' : Kernel) : Prop :=
  s' = { s with
    userMemCheckAddr := s'.userMemCheckAddr
    cons := s'.cons
    serial := s'.serial
    keyboard := s'.keyboard
    console := s'.console
    derefs := s'.derefs
    eois := s'.eois }

theorem Unmoved.composes :
  Composes Unmoved
  := by
  constructor
  · intro s
    rfl
  · intro s s' s'' h h'
    rw [Unmoved] at h h' ⊢
    rw [h', h]

theorem Unmoved.memOnly (h : Unmoved s s') :
  MemOnly s s'
  := by
  rw [Unmoved] at h
  rw [h]
  exact ⟨rfl, rfl, rfl⟩

theorem Reads.unmoved (h : Reads s s') :
  Unmoved s s'
  := by
  rw [Reads] at h
  rw [h]
  rfl

/-- The kernel with other registers saved in the environment `e`. -/
def Kernel.withTf (s : Kernel) (e : Nat) (tf : Trapframe) : Kernel :=
  s.setEnv e { s.envs e with envTf := tf }

theorem Kernel.withTf_withTf (s : Kernel) (e : Nat) (tf tf' : Trapframe) :
  (s.withTf e tf).withTf e tf' = s.withTf e tf'
  := by
  simp only [withTf, setEnv, Function.update_self, Function.update_idem]

theorem Kernel.withTf_self (s : Kernel) (e : Nat) :
  s.withTf e (s.envs e).envTf = s
  := by
  rw [withTf, setEnv, show { s.envs e with envTf := (s.envs e).envTf } = s.envs e from rfl,
    Function.update_eq_self]

/-- Only the saved registers of the environment `e` are different as well. -/
def Minor (e : Nat) (s s' : Kernel) : Prop :=
  ∃ tf, Unmoved (s.withTf e tf) s'

theorem Unmoved.minor (h : Unmoved s s') (e : Nat) :
  Minor e s s'
  := by
  use (s.envs e).envTf
  rw [Kernel.withTf_self]
  exact h

/-- The registers may be saved before or after the other changes. -/
theorem Unmoved.withTf (h : Unmoved s s') (e : Nat) (tf : Trapframe) :
  Unmoved (s.withTf e tf) (s'.withTf e tf)
  := by
  rw [Unmoved] at h ⊢
  rw [h]
  rfl

theorem Minor.composes (e : Nat) :
  Composes (Minor e)
  := by
  constructor
  · intro s
    exact (Unmoved.composes.refl s).minor e
  · intro s s' s'' ⟨tf, h⟩ ⟨tf', h'⟩
    use tf'
    have h1 := h.withTf e tf'
    rw [Kernel.withTf_withTf] at h1
    exact Unmoved.composes.trans h1 h'

theorem minor_withTf (s : Kernel) (e : Nat) (tf : Trapframe) :
  Minor e s (s.withTf e tf)
  := ⟨tf, Unmoved.composes.refl _⟩

theorem Minor.curenv {e : Nat} (h : Minor e s s') :
  s'.curenv = s.curenv
  := by
  obtain ⟨tf, h⟩ := h
  exact h.memOnly.curenv

/-- How the kernel is left after a trap of the environment `cur` that is no system call. -/
inductive Gone (cur : Nat) (s : Kernel) : Kernel → Prop
  | on {s1 s' : Kernel} (hminor : Minor cur s s1) (hres : Resumed s1 s') : Gone cur s s'
  | upcall {s1 s2 : Kernel} {va : Word} {ws : List Word} (tf : Trapframe)
    (hminor : Minor cur s s1) (hlo : UXSTACKTOP - PGSIZE ≤ va.toNat)
    (hhi : va.toNat + 4 * ws.length ≤ UXSTACKTOP) (hstore : kernStoreWords va ws s1 = .ok ((), s2)) :
    Gone cur s ((s2.withTf cur tf).running cur)
  | freed {s1 s2 s' : Kernel} (hminor : Minor cur s s1) (hfreed : EnvFreed cur s1 s2)
    (hres : Resumed { s2 with curenv := none } s') : Gone cur s s'

theorem Gone.after (h : Minor cur s s') (h' : Gone cur s' s'') :
  Gone cur s s''
  := by
  cases h' with
  | on hminor hres => exact .on ((Minor.composes cur).trans h hminor) hres
  | upcall tf hminor hlo hhi hstore =>
      exact .upcall tf ((Minor.composes cur).trans h hminor) hlo hhi hstore
  | freed hminor hfreed hres => exact .freed ((Minor.composes cur).trans h hminor) hfreed hres

/-- Emulating an instruction changes registers, or is not done at all. -/
theorem emulate_minor (inb : Word → Byte) :
  (emulate inb cur).MayEnd s
    (fun done s' => (done = true → Minor cur s s') ∧ (done = false → Reads s s'))
    (fun _ => False)
  := by
  have hset : ∀ {s1 : Kernel} {tf : Trapframe}, Unmoved s s1 →
      (do setTf cur tf; pure true : Prog Kernel Bool).MayEnd s1
        (fun done s' => (done = true → Minor cur s s') ∧ (done = false → Reads s s'))
        (fun _ => False) := by
    intro s1 tf h1
    rw [mayEnd_bind, setTf, mayEnd_modify, mayEnd_pure]
    refine ⟨fun _ => ?_, fun h => by cases h⟩
    exact (Minor.composes cur).trans (h1.minor cur) (minor_withTf s1 cur tf)
  rw [emulate, mayEnd_bind, mayEnd_get]
  simp only
  rw [mayEnd_bind]
  apply (kernLoad_reads _).mono _ (fun _ h => h)
  rintro op s1 ⟨h1, -⟩
  rw [mayEnd_ite]
  refine ⟨fun _ => hset h1.unmoved, ?_⟩
  intro _
  rw [mayEnd_ite]
  refine ⟨fun _ => hset h1.unmoved, ?_⟩
  intro _
  rw [mayEnd_ite]
  constructor
  · intro _
    have hput : ∀ val eip, Keeps Unmoved (emulateOut val eip) := by
      intro val eip
      apply keeps_ite
      · exact keeps_modify (fun _ => rfl)
      · exact keeps_pure Unmoved.composes ()
    rw [mayEnd_bind]
    apply ((hput _ _).after Unmoved.composes h1.unmoved).mono _ (fun _ h => h)
    exact fun _ s2 h2 => hset h2
  · intro _
    rw [mayEnd_bind]
    apply (kernLoad_reads _).mono _ (fun _ h => h)
    rintro b s2 ⟨h2, -⟩
    have h02 := h1.trans h2
    rw [mayEnd_ite]
    refine ⟨fun _ => hset h02.unmoved, ?_⟩
    intro _
    rw [mayEnd_bind]
    apply (kernLoad32_reads _).mono _ (fun _ h => h)
    rintro w s3 ⟨h3, -⟩
    have h03 := h02.trans h3
    rw [mayEnd_ite]
    refine ⟨fun _ => hset h03.unmoved, ?_⟩
    intro _
    rw [mayEnd_pure]
    exact ⟨fun h => absurd h (by decide), fun _ => h03⟩

theorem checkByte_unmoved (pgdir : Nat) (va perm : Word) (i : Nat) :
  Keeps Unmoved (checkByte pgdir va perm i)
  := by
  have hcomp := Unmoved.composes
  have hwalk : ∀ va, Keeps Unmoved (pgdirWalk pgdir va false) := by
    intro va
    apply keeps_bind hcomp (keeps_get hcomp)
    intro s
    apply keeps_ite (keeps_pure hcomp _)
    apply keeps_bind hcomp
    · apply keeps_bind hcomp (keeps_get hcomp)
      exact fun _ => keeps_ite (keeps_panic _) (keeps_pure hcomp _)
    · exact fun _ => keeps_pure hcomp _
  apply keeps_bind hcomp (hwalk _)
  intro pte
  apply keeps_bind hcomp (keeps_get hcomp)
  intro s
  apply keeps_ite
  · apply keeps_bind hcomp
    · exact keeps_modify (fun _ => rfl)
    · exact fun _ => keeps_pure hcomp _
  · exact keeps_pure hcomp _

/-- Checking user memory changes only the record of the check. -/
theorem userMemCheck_unmoved (pgdir : Nat) (va len perm : Word) :
  Keeps Unmoved (userMemCheck pgdir va len perm)
  := by
  apply keeps_bind Unmoved.composes
  · exact keeps_findUp Unmoved.composes (checkByte_unmoved pgdir va perm) 0 _
  · exact fun _ => keeps_pure Unmoved.composes _

section Traps

variable (hcur : s.curenv = some cur)
include hcur

/-- Destroying the current environment frees it. -/
theorem envDestroy_gone :
  (envDestroy cur).MayEnd s (fun _ _ => False) (Gone cur s)
  := by
  apply (envDestroy_freed hcur).mono (fun _ _ h => h)
  rintro s' ⟨s1, hfreed, hres⟩
  exact .freed ((Minor.composes cur).refl s) hfreed hres

theorem dispatchInterrupt_gone :
  (dispatchInterrupt cur).MayEnd s (fun _ s' => Minor cur s s') (Gone cur s)
  := by
  have hdestroy : (envDestroy cur).MayEnd s (fun _ s' => Minor cur s s') (Gone cur s) :=
    (envDestroy_gone hcur).mono (fun _ _ h => h.elim) (fun _ h => h)
  rw [dispatchInterrupt, mayEnd_bind, mayEnd_get]
  simp only
  rw [mayEnd_ite]
  refine ⟨fun _ => mayEnd_pure _ |>.mpr ((Minor.composes cur).refl s), ?_⟩
  intro _
  rw [mayEnd_ite]
  constructor
  · intro _
    rw [kbdIntr, mayEnd_modify]
    exact Unmoved.minor (by rfl) cur
  intro _
  rw [mayEnd_ite]
  constructor
  · intro _
    rw [mayEnd_bind, lapicEoi, mayEnd_modify]
    have hminor : Minor cur s { s with eois := s.eois + 1 } := Unmoved.minor (by rfl) cur
    exact schedYield_resumed.mono (fun _ _ h => h.elim) (fun _ h => .on hminor h)
  intro _
  rw [mayEnd_ite]
  refine ⟨fun _ => hdestroy, ?_⟩
  intro _
  rw [mayEnd_ite]
  exact ⟨fun _ => mayEnd_panic _, fun _ => hdestroy⟩

/-- A page fault takes the current environment to its handler, or frees it. -/
theorem pageFaultHandler_gone (faultVa : Word) :
  (pageFaultHandler faultVa).MayEnd s (fun _ _ => False) (Gone cur s)
  := by
  rw [pageFaultHandler, mayEnd_of_bind_eq (curenv_eq hcur), mayEnd_bind, mayEnd_get]
  simp only
  rw [mayEnd_ite]
  refine ⟨fun _ => mayEnd_panic _, ?_⟩
  intro _
  rw [mayEnd_ite]
  refine ⟨?_, fun _ => envDestroy_gone hcur⟩
  intro hstack
  rw [mayEnd_ite]
  refine ⟨fun _ => envDestroy_gone hcur, ?_⟩
  intro hlo
  have hroom : ¬ NoRoom (s.envs cur).envTf.tfEsp := by
    rw [noRoom_iff]
    rintro (h | ⟨-, h⟩)
    · exact h hstack.2
    · exact hlo h
  obtain ⟨hlo', hhi⟩ := frameVa_inside hroom
  rw [mayEnd_bind, userMemAssert, mayEnd_bind, mayEnd_get, mayEnd_bind, mayEnd_orElse]
  refine ⟨?_, fun _ => mayEnd_fault 0⟩
  intro pgdir _
  rw [mayEnd_bind]
  apply (userMemCheck_unmoved _ _ _ _ s).mono _ (fun _ h => h.elim)
  intro r s1 h1
  have hcur1 : s1.curenv = some cur := h1.memOnly.curenv.trans hcur
  rw [mayEnd_ite]
  constructor
  · intro _
    apply (envDestroy_gone hcur1).mono (fun _ _ h => h.elim)
    exact fun _ h => h.after (h1.minor cur)
  · intro _
    rw [mayEnd_pure, mayEnd_bind]
    apply (MemOnly.kernStoreWords _ _ s1).with_eq.mono _ (fun _ h => h.1.elim)
    rintro _ s2 ⟨-, hstore⟩
    rw [mayEnd_bind, mayEnd_modify]
    obtain ⟨s3, hs3⟩ : ∃ s3, s3 = s2.withTf cur { (s2.envs cur).envTf with
      tfEsp := frameVa (s.envs cur).envTf.tfEsp
      tfEip := (s.envs cur).envPgfaultUpcall } := ⟨_, rfl⟩
    have hgone : Gone cur s (s3.running cur) := by
      rw [hs3]
      have hsize : (frameVa (s.envs cur).envTf.tfEsp).toNat
          + 4 * (UTrapframe.ofTrap faultVa (s.envs cur).envTf).words.length ≤ UXSTACKTOP := hhi
      exact .upcall _ (h1.minor cur) hlo' hsize hstore
    change (envRun cur : Prog Kernel Unit).MayEnd (s2.withTf cur { (s2.envs cur).envTf with
      tfEsp := frameVa (s.envs cur).envTf.tfEsp
      tfEip := (s.envs cur).envPgfaultUpcall }) _ _
    rw [← hs3]
    by_cases hpg : (s3.envs cur).envPgdir = none
    · have hpanic : (envRun cur : Prog Kernel Unit) s3
          = .error (.panic "PADDR called with invalid kva 00000000") := by
        rw [envRun_run, if_pos hpg]
        rfl
      exact mayEnd_of_panic hpanic
    · rw [mayEnd_of_leave (envRun_eq hpg)]
      exact hgone

/-- A trap that is no system call. -/
theorem dispatchTrapno_gone (faultVa : Word) (hno : (s.envs cur).envTf.tfTrapno ≠ T_SYSCALL) :
  (dispatchTrapno faultVa cur).MayEnd s (fun _ s' => Minor cur s s') (Gone cur s)
  := by
  rw [dispatchTrapno, mayEnd_bind, mayEnd_get]
  simp only
  rw [mayEnd_ite]
  constructor
  · intro _
    rw [mayEnd_bind, setTf, mayEnd_modify]
    have hminor := minor_withTf s cur { (s.envs cur).envTf with
      tfEflags := (s.envs cur).envTf.tfEflags ||| -FL_TF }
    have hcur' : (s.withTf cur { (s.envs cur).envTf with
      tfEflags := (s.envs cur).envTf.tfEflags ||| -FL_TF }).curenv = some cur := hcur
    apply (dispatchInterrupt_gone hcur').mono
    · exact fun _ _ h => (Minor.composes cur).trans hminor h
    · exact fun _ h => h.after hminor
  intro _
  rw [mayEnd_ite]
  constructor
  · intro _
    rw [mayEnd_bind]
    exact (pageFaultHandler_gone hcur faultVa).mono (fun _ _ h => h.elim) (fun _ h => h)
  intro _
  rw [mayEnd_ite]
  constructor
  · intro _
    rw [monitor, mayEnd_bind]
    exact mayEnd_panic _
  intro _
  rw [mayEnd_ite]
  exact ⟨fun h => (hno h).elim, fun _ => dispatchInterrupt_gone hcur⟩

end Traps

/-! ### System calls -/

/-- The system call the registers saved ask for. -/
def Turn.syscall (t : Turn) : Prog Kernel Word :=
  Jos.syscall t.tf.tfRegs.regEax t.tf.tfRegs.regEdx t.tf.tfRegs.regEcx t.tf.tfRegs.regEbx
    t.tf.tfRegs.regEdi t.tf.tfRegs.regEsi

/-- The state in which the trap of the environment `cur` makes a system call, if it makes
one.  A guest makes none if there is an instruction to emulate where it was trapped. -/
def Turn.called (t : Turn) (cur : Nat) : Option Kernel :=
  if (t.entered.envs cur).envStatus = .ENV_DYING ∨ t.tf.tfTrapno ≠ T_SYSCALL then
    none
  else if ((t.saved cur).envs cur).envType = .ENV_TYPE_GUEST then
    match emulate t.inb cur (t.saved cur) with
    | .ok (false, s) => some s
    | _ => none
  else
    some (t.saved cur)

/-- The system call that a trap makes, and the value it returns. -/
def Turn.result (t : Turn) (cur : Nat) : Option (Syscall × Word) :=
  match t.called cur with
  | none => none
  | some s =>
      match t.syscall s with
      | .ok (r, _) => (Syscall.ofWord t.tf.tfRegs.regEax).map (fun sys => (sys, r))
      | .error _ => none

/-- A running environment that is no guest makes a system call. -/
theorem Turn.called_eq {t : Turn} (hrun : (t.entered.envs cur).envStatus = .ENV_RUNNING)
    (htype : (t.entered.envs cur).envType ≠ .ENV_TYPE_GUEST) (hno : t.tf.tfTrapno = T_SYSCALL) :
  t.called cur = some (t.saved cur)
  := by
  rw [Turn.called, if_neg, if_neg]
  · rw [Turn.saved, Kernel.setEnv_envs_self]
    exact htype
  · rintro (h | h)
    · rw [hrun] at h
      cases h
    · exact h hno

/-- The environment `cur` is given the value a system call returned. -/
def Kernel.returning (s : Kernel) (cur : Nat) (r : Word) : Kernel :=
  s.withTf cur { (s.envs cur).envTf with
    tfRegs := { (s.envs cur).envTf.tfRegs with regEax := r } }

/-- How the kernel is left after a trap of the environment `cur`. -/
inductive Turn.Trapped (t : Turn) (cur : Nat) : Kernel → Prop
  | returned {s s1 s' : Kernel} {r : Word} (hcall : t.called cur = some s)
    (hreads : Reads (t.saved cur) s) (heq : t.syscall s = .ok (r, s1))
    (hres : Resumed (s1.returning cur r) s') : Trapped t cur s'
  | left {s s' : Kernel} (hcall : t.called cur = some s) (hreads : Reads (t.saved cur) s)
    (heq : t.syscall s = .error (.leave s')) : Trapped t cur s'
  | gone {s' : Kernel} (hcall : t.called cur = none) (hgone : Gone cur t.entered s') :
    Trapped t cur s'

/-- The end of a trap: the environment `cur` goes on if it may, and another one otherwise. -/
theorem goOn_resumed (hlt : cur < NENV) :
  (if (s.envs cur).envStatus = .ENV_RUNNING then envRun cur else schedYield :
    Prog Kernel Unit).MayEnd s (fun _ _ => False) (Resumed s)
  := by
  rw [mayEnd_ite]
  refine ⟨?_, fun _ => schedYield_resumed⟩
  intro hst
  by_cases hpg : (s.envs cur).envPgdir = none
  · have hpanic : (envRun cur : Prog Kernel Unit) s
        = .error (.panic "PADDR called with invalid kva 00000000") := by
      rw [envRun_run, if_pos hpg]
      rfl
    exact mayEnd_of_panic hpanic
  · rw [mayEnd_of_leave (envRun_eq hpg)]
    exact .run hlt (Or.inr hst)

section Turns

variable {t : Turn} (hcur : t.entered.curenv = some cur) (hlt : cur < NENV)
include hcur

/-- What dispatching a trap may do: return from a system call, change registers, or leave
the kernel. -/
def Turn.Dispatched (t : Turn) (cur : Nat) (s' : Kernel) : Prop :=
  (∃ s s1 r, t.called cur = some s ∧ Reads (t.saved cur) s ∧ t.syscall s = .ok (r, s1)
    ∧ s1.curenv = some cur ∧ s' = s1.returning cur r) ∨
  (t.called cur = none ∧ Minor cur t.entered s')

omit hcur in
theorem Turn.saved_tf :
  ((t.saved cur).envs cur).envTf = t.tf
  := by rw [Turn.saved, Kernel.setEnv_envs_self]

omit hcur in
theorem Turn.saved_minor :
  Minor cur t.entered (t.saved cur)
  := minor_withTf t.entered cur t.tf

/-- Dispatching a system call. -/
theorem Turn.dispatch_call {s : Kernel} (hcall : t.called cur = some s)
    (hno : t.tf.tfTrapno = T_SYSCALL) (hreads : Reads (t.saved cur) s) :
  (dispatchTrapno t.faultVa cur).MayEnd s (fun _ s' => t.Dispatched cur s') (t.Trapped cur)
  := by
  have htf : (s.envs cur).envTf = t.tf := by
    rw [hreads.memOnly.envs]
    exact Turn.saved_tf
  have hcur' : s.curenv = some cur := hreads.memOnly.curenv.trans hcur
  rw [dispatchTrapno, mayEnd_bind, mayEnd_get]
  simp only [htf]
  rw [if_neg (by rw [hno]; decide), if_neg (by rw [hno]; decide), if_neg (by rw [hno]; decide),
    if_pos hno, mayEnd_bind]
  apply (syscall_returned hcur' _ _ _ _ _ _).with_eq.mono
  · rintro r s1 ⟨⟨sys, -, hret⟩, heq⟩
    rw [mayEnd_bind, mayEnd_get, setTf, mayEnd_modify]
    exact Or.inl ⟨s, s1, r, hcall, hreads, heq, hret.curenv.trans hcur', rfl⟩
  · rintro s' ⟨-, heq⟩
    exact .left hcall hreads heq

/-- Dispatching a trap of another kind. -/
theorem Turn.dispatch_other {s : Kernel} (hcall : t.called cur = none)
    (hno : t.tf.tfTrapno ≠ T_SYSCALL) (hreads : Reads (t.saved cur) s) :
  (dispatchTrapno t.faultVa cur).MayEnd s (fun _ s' => t.Dispatched cur s') (t.Trapped cur)
  := by
  have htf : (s.envs cur).envTf = t.tf := by
    rw [hreads.memOnly.envs]
    exact Turn.saved_tf
  have hcur' : s.curenv = some cur := hreads.memOnly.curenv.trans hcur
  have hminor : Minor cur t.entered s :=
    (Minor.composes cur).trans Turn.saved_minor (hreads.unmoved.minor cur)
  rw [← htf] at hno
  apply (dispatchTrapno_gone hcur' t.faultVa hno).mono
  · exact fun _ _ h => Or.inr ⟨hcall, (Minor.composes cur).trans hminor h⟩
  · exact fun _ h => .gone hcall (h.after hminor)

/-- Dispatching a trap of an environment that is not about to be freed. -/
theorem Turn.dispatch_dispatched (hst : (t.entered.envs cur).envStatus ≠ .ENV_DYING) :
  (trapDispatch t.inb t.faultVa cur).MayEnd (t.saved cur) (fun _ s' => t.Dispatched cur s')
    (t.Trapped cur)
  := by
  have hdispatch : ∀ {s}, Reads (t.saved cur) s →
      (t.tf.tfTrapno = T_SYSCALL → t.called cur = some s) →
      (dispatchTrapno t.faultVa cur).MayEnd s (fun _ s' => t.Dispatched cur s')
        (t.Trapped cur) := by
    intro s hreads hcall
    by_cases hno : t.tf.tfTrapno = T_SYSCALL
    · exact Turn.dispatch_call hcur (hcall hno) hno hreads
    · have hnone : t.called cur = none := by rw [Turn.called, if_pos (Or.inr hno)]
      exact Turn.dispatch_other hcur hnone hno hreads
  have hcalled : t.tf.tfTrapno = T_SYSCALL →
      ¬ ((t.entered.envs cur).envStatus = .ENV_DYING ∨ t.tf.tfTrapno ≠ T_SYSCALL) := by
    rintro hno (h | h)
    · exact hst h
    · exact h hno
  rw [trapDispatch, mayEnd_bind, mayEnd_get, mayEnd_ite]
  constructor
  · intro hguest
    rw [mayEnd_bind]
    apply (emulate_minor t.inb).with_eq.mono _ (fun _ h => h.1.elim)
    rintro done s1 ⟨⟨hyes, hno⟩, heq⟩
    cases done with
    | true =>
        rw [if_pos rfl, mayEnd_pure]
        right
        refine ⟨?_, (Minor.composes cur).trans Turn.saved_minor (hyes rfl)⟩
        rw [Turn.called]
        by_cases hsys : (t.entered.envs cur).envStatus = .ENV_DYING ∨ t.tf.tfTrapno ≠ T_SYSCALL
        · rw [if_pos hsys]
        · rw [if_neg hsys, if_pos hguest, heq]
    | false =>
        rw [if_neg (by decide)]
        apply hdispatch (hno rfl)
        intro h
        rw [Turn.called, if_neg (hcalled h), if_pos hguest, heq]
  · intro hguest
    apply hdispatch (.refl _)
    intro h
    rw [Turn.called, if_neg (hcalled h), if_neg hguest]

include hlt

/-- A trap is a system call, or of another kind. -/
theorem Turn.trap_trapped :
  (trap t.inb t.faultVa t.tf).MayEnd t.entered (fun _ _ => False) (t.Trapped cur)
  := by
  rw [trap, mayEnd_bind, mayEnd_get, hcur]
  simp only
  rw [mayEnd_ite]
  constructor
  · -- the environment was destroyed by another one, and is freed now
    intro hst
    have hnone : t.called cur = none := by rw [Turn.called, if_pos (Or.inl hst)]
    rw [mayEnd_bind]
    apply (envFree_freed cur).mono _ (fun _ h => h.elim)
    intro _ s1 hfreed
    rw [mayEnd_bind, mayEnd_modify]
    apply schedYield_resumed.mono (fun _ _ h => h)
    exact fun _ hres => .gone hnone (.freed ((Minor.composes cur).refl _) hfreed hres)
  · intro hst
    rw [mayEnd_bind, setTf, mayEnd_modify, mayEnd_bind]
    apply (Turn.dispatch_dispatched hcur hst).mono _ (fun _ h => h)
    rintro _ s2 (⟨s, s1, r, hcall, hreads, heq, hcur1, rfl⟩ | ⟨hcall, hminor⟩)
    · have hcur2 : (s1.returning cur r).curenv = some cur := hcur1
      rw [mayEnd_bind, mayEnd_get, hcur2]
      apply (goOn_resumed hlt).mono (fun _ _ h => h)
      exact fun _ hres => .returned hcall hreads heq hres
    · have hcur2 : s2.curenv = some cur := hminor.curenv.trans hcur
      rw [mayEnd_bind, mayEnd_get, hcur2]
      apply (goOn_resumed hlt).mono (fun _ _ h => h)
      exact fun _ hres => .gone hcall (.on hminor hres)

end Turns

/-- A turn of an environment ends as its trap does. -/
theorem Turn.Takes.trapped {t : Turn} (h : t.Takes s s') (hcur : s.curenv = some cur)
    (hlt : cur < NENV) :
  t.Trapped cur s'
  := by
  have hcur' : t.entered.curenv = some cur := by
    rw [h.ran.quiet]
    exact hcur
  exact (Turn.trap_trapped hcur' hlt).of_leave h.left

end Jos
