import Jos.Kern.Accounting
import Jos.Kern.Machine
import Jos.Kern.Privilege
import Jos.Kern.UserMem

/-!
# Environments stay in user mode

What a trap does to the privileges of the environments, and from it what a run of the
machine does.  If environments only ask for registers a user may have, and keep their own
data segments, every environment runs at privilege level 3 with interrupts enabled, and
may use I/O ports only if it is the file server or was forked by one that may.
-/

namespace Jos

open Bytes Prog

variable {s s' s'' : Kernel}

/-! ### Traps -/

/-- What a trap of the current environment does to privileges, from the state in which
its frame `tf` has been saved. -/
structure Handled (cur : Nat) (tf : Trapframe) (s s' : Kernel) : Prop where
  live : CurLive s'
  touched : Touched
    (fun e p => tf.tfTrapno = T_SYSCALL
      ∧ SetFrame s cur tf.tfRegs.regEax tf.tfRegs.regEdx tf.tfRegs.regEcx e p)
    (fun p => tf.tfTrapno = T_SYSCALL ∧ ForkFrame s cur tf.tfRegs.regEax p) s s'

theorem Left.handled {cur : Nat} {tf : Trapframe} (h : Left s s') :
  Handled cur tf s s'
  := ⟨h.live, .of_same h.same⟩

section Traps

variable {cur : Nat} (hcur : s.curenv = some cur) (hlive : s.Live cur)
include hcur hlive

theorem curLive_of_eq :
  CurLive s
  := by
  intro e he
  rw [hcur] at he
  obtain rfl := Option.some.inj he
  exact hlive

omit hcur in
theorem setTf_steady {tf : Trapframe} (h : tf.privilege = (s.envs cur).envTf.privilege) :
  Steady s (s.setEnv cur { s.envs cur with envTf := tf })
  := .setEnv hlive.2 hlive.2 rfl rfl h

omit hcur in
/-- Emulating an instruction changes no privileges, and nothing at all if there is no
instruction to emulate. -/
theorem emulate_mayEnd (inb : Word → Byte) :
  (emulate inb cur).MayEnd s (fun done s' => Steady s s' ∧ (done = false → Reads s s'))
    (fun _ => False)
  := by
  -- every branch that emulates sets registers in a state that differs only in memory
  have hset : ∀ {s1 : Kernel} {tf : Trapframe}, MemOnly s s1 →
      tf.privilege = (s.envs cur).envTf.privilege →
      (do setTf cur tf; pure true : Prog Kernel Bool).MayEnd s1
        (fun done s' => Steady s s' ∧ (done = false → Reads s s')) (fun _ => False) := by
    intro s1 tf h1 hpriv
    rw [mayEnd_bind, setTf, mayEnd_modify, mayEnd_pure]
    have hlive1 : s1.Live cur := by
      rw [Kernel.Live, h1.envs]
      exact hlive
    rw [← h1.envs] at hpriv
    exact ⟨h1.steady.trans (setTf_steady hlive1 hpriv), fun h => by cases h⟩
  rw [emulate, mayEnd_bind, mayEnd_get]
  simp only
  rw [mayEnd_bind]
  apply (kernLoad_reads _).mono _ (fun _ h => h)
  rintro op s1 ⟨h1, -⟩
  rw [mayEnd_ite]
  refine ⟨fun _ => hset h1.memOnly rfl, ?_⟩
  intro _
  rw [mayEnd_ite]
  refine ⟨fun _ => hset h1.memOnly rfl, ?_⟩
  intro _
  rw [mayEnd_ite]
  constructor
  · intro _
    have hput : ∀ val eip, Keeps MemOnly (emulateOut val eip) := by
      intro val eip
      apply keeps_ite
      · exact MemOnly.keeps_modify (fun _ => ⟨rfl, rfl, rfl⟩)
      · exact MemOnly.keeps_pure ()
    rw [mayEnd_bind]
    apply ((hput _ _).after MemOnly.composes h1.memOnly).mono _ (fun _ h => h)
    exact fun _ s2 h2 => hset h2 rfl
  · intro _
    rw [mayEnd_bind]
    apply (kernLoad_reads _).mono _ (fun _ h => h)
    rintro b s2 ⟨h2, -⟩
    have h02 := h1.trans h2
    rw [mayEnd_ite]
    refine ⟨fun _ => hset h02.memOnly rfl, ?_⟩
    intro _
    rw [mayEnd_bind]
    apply (kernLoad32_reads _).mono _ (fun _ h => h)
    rintro w s3 ⟨h3, -⟩
    have h03 := h02.trans h3
    rw [mayEnd_ite]
    refine ⟨fun _ => hset h03.memOnly rfl, ?_⟩
    intro _
    exact mayEnd_pure _ |>.mpr ⟨h03.memOnly.steady, fun _ => h03⟩

omit hcur hlive in
/-- Interrupts change no privileges. -/
theorem dispatchInterrupt_settles :
  Settles (dispatchInterrupt cur) s
  := by
  apply Settles.get
  apply Settles.ite (fun _ => .pure ())
  intro _
  apply Settles.ite (fun _ => .of_keeps MemOnly.kbdIntr)
  intro _
  apply Settles.ite
  · intro _
    apply Settles.bind (.of_keeps MemOnly.lapicEoi)
    exact fun _ _ _ => schedYield_settles.mono (fun _ _ h => h.elim) (fun _ h => h.1)
  intro _
  apply Settles.ite (fun _ => envDestroy_settles cur)
  intro _
  apply Settles.ite (fun _ => mayEnd_panic _)
  exact fun _ => envDestroy_settles cur

/-- A page fault changes no privileges. -/
theorem pageFaultHandler_settles (faultVa : Word) :
  Settles (pageFaultHandler faultVa) s
  := by
  apply Settles.bind_eq (curenv_eq hcur)
  apply Settles.get
  apply Settles.ite (fun _ => mayEnd_panic _)
  intro _
  apply Settles.ite
  · intro _
    apply Settles.ite (fun _ => envDestroy_settles cur)
    intro _
    unfold Settles
    simp only
    rw [mayEnd_bind]
    apply (userMemAssert_settles cur _ _ _).mono _ (fun _ h => h)
    intro _ s1 h1
    have hcur1 : s1.curenv = some cur := h1.curenv.trans hcur
    have hlive1 : s1.Live cur := h1.live (curLive_of_eq hcur hlive) cur hcur1
    rw [mayEnd_bind]
    apply (MemOnly.kernStoreWords _ _ s1).mono _ (fun _ h => h.elim)
    intro _ s2 h2
    have hlive2 : s2.Live cur := by
      rw [Kernel.Live, h2.envs]
      exact hlive1
    rw [mayEnd_bind, mayEnd_modify]
    have h3 := h1.trans (h2.steady.trans (setTf_steady hlive2
      (show { (s2.envs cur).envTf with
        tfEsp := faultStack (s.envs cur).envTf.tfEsp - BitVec.ofNat 32 UTrapframe.size
        tfEip := (s.envs cur).envPgfaultUpcall }.privilege = _ from rfl)))
    have hlive3 := h3.live (curLive_of_eq hcur hlive) cur (h3.curenv.trans hcur)
    apply (envRun_settles hlive3).mono
    · exact fun _ _ h => h3.trans h
    · exact fun _ h => h.after h3.same
  · exact fun _ => envDestroy_settles cur

/-- Dispatching a trap changes privileges only if it is a system call. -/
theorem dispatchTrapno_mayEnd (faultVa : Word) :
  (dispatchTrapno faultVa cur).MayEnd s
    (fun _ s' => Handled cur (s.envs cur).envTf s s') (Handled cur (s.envs cur).envTf s)
  := by
  have hsettles : ∀ {m : Prog Kernel Unit}, Settles m s →
      m.MayEnd s (fun _ s' => Handled cur (s.envs cur).envTf s s')
        (Handled cur (s.envs cur).envTf s) := by
    intro m hm
    apply hm.mono
    · exact fun _ _ h => ⟨h.live (curLive_of_eq hcur hlive), .of_same h.same⟩
    · exact fun _ h => h.handled
  rw [dispatchTrapno, mayEnd_bind, mayEnd_get]
  simp only
  rw [mayEnd_ite]
  constructor
  · -- the flags that are set are those of an environment that is destroyed at once
    intro hdebug
    have hno : ∀ {w : Word}, w ≠ T_DEBUG → (s.envs cur).envTf.tfTrapno ≠ w := by
      intro w hw h
      exact hw (h.symm.trans hdebug)
    rw [mayEnd_bind, setTf, mayEnd_modify]
    obtain ⟨tf, htf⟩ : ∃ tf, tf = { (s.envs cur).envTf with
      tfEflags := (s.envs cur).envTf.tfEflags ||| -FL_TF } := ⟨_, rfl⟩
    rw [← htf]
    obtain ⟨s1, hs1⟩ : ∃ s1, s1 = s.setEnv cur { s.envs cur with envTf := tf } := ⟨_, rfl⟩
    rw [← hs1]
    have htrapno : (s1.envs cur).envTf.tfTrapno = (s.envs cur).envTf.tfTrapno := by
      rw [hs1, Kernel.setEnv_envs_self, htf]
    have hdestroy : (envDestroy cur).MayEnd s1
        (fun _ s' => Handled cur (s.envs cur).envTf s s')
        (Handled cur (s.envs cur).envTf s) := by
      have hcur1 : s1.curenv = some cur := by
        rw [hs1]
        exact hcur
      apply (envDestroy_self hcur1).mono (fun _ _ h => h.elim)
      rintro s2 ⟨hleft, hfree⟩
      refine ⟨hleft.live, .of_same ?_⟩
      intro e he
      have hne : e ≠ cur := by
        rintro rfl
        exact he hfree
      have hsame := hleft.same e he
      rw [hs1, Kernel.setEnv_envs_of_ne _ _ hne] at hsame
      exact hsame
    rw [dispatchInterrupt, mayEnd_bind, mayEnd_get]
    simp only
    rw [htrapno, if_neg (hno (by decide)), if_neg (hno (by decide)), if_neg (hno (by decide)),
      mayEnd_ite]
    refine ⟨fun _ => hdestroy, ?_⟩
    intro _
    rw [mayEnd_ite]
    exact ⟨fun _ => mayEnd_panic _, fun _ => hdestroy⟩
  intro _
  rw [mayEnd_ite]
  constructor
  · intro _
    apply hsettles
    exact (pageFaultHandler_settles hcur hlive faultVa).bind
      (fun _ _ _ => dispatchInterrupt_settles)
  intro _
  rw [mayEnd_ite]
  constructor
  · intro _
    rw [monitor, mayEnd_bind]
    exact mayEnd_panic _
  intro _
  rw [mayEnd_ite]
  constructor
  · intro hsys
    rw [mayEnd_bind]
    apply (syscall_called hcur hlive _ _ _ _ _ _).mono _ (fun _ h => h.handled)
    intro r s1 h1
    rw [mayEnd_bind, mayEnd_get, setTf, mayEnd_modify]
    have hsame : SamePrivileges s1 (s1.setEnv cur { s1.envs cur with
        envTf := { (s1.envs cur).envTf with
          tfRegs := { (s1.envs cur).envTf.tfRegs with regEax := r } } }) := by
      apply Steady.same
      apply setTf_steady h1.live
      rfl
    constructor
    · intro e he
      have he' : s1.curenv = some e := he
      rw [h1.curenv] at he'
      obtain rfl := Option.some.inj he'
      refine ⟨h1.live.1, ?_⟩
      rw [Kernel.setEnv_envs_self]
      exact h1.live.2
    · apply (h1.touched.trans hsame).imp
      · exact fun _ _ h => ⟨hsys, h⟩
      · exact fun _ h => ⟨hsys, h⟩
  · exact fun _ => hsettles dispatchInterrupt_settles

/-- Handling the trap whose frame is saved in the current environment. -/
theorem trapDispatch_mayEnd (inb : Word → Byte) (faultVa : Word) :
  (trapDispatch inb faultVa cur).MayEnd s
    (fun _ s' => Handled cur (s.envs cur).envTf s s') (Handled cur (s.envs cur).envTf s)
  := by
  rw [trapDispatch, mayEnd_bind, mayEnd_get, mayEnd_ite]
  refine ⟨?_, fun _ => dispatchTrapno_mayEnd hcur hlive faultVa⟩
  intro _
  rw [mayEnd_bind]
  apply (emulate_mayEnd hlive inb).mono _ (fun _ h => h.elim)
  rintro done s1 ⟨h1, hreads⟩
  cases done with
  | true =>
      exact mayEnd_pure _ |>.mpr ⟨h1.live (curLive_of_eq hcur hlive), .of_same h1.same⟩
  | false =>
      obtain hs1 := hreads rfl
      have henvs := hs1.memOnly.envs
      have hcur1 : s1.curenv = some cur := h1.curenv.trans hcur
      have hlive1 : s1.Live cur := h1.live (curLive_of_eq hcur hlive) cur hcur1
      have hfind : ∀ id b, s1.findEnv cur id b = s.findEnv cur id b := by
        intro id b
        rw [Kernel.findEnv, Kernel.findEnv, henvs]
      have hframe : ∀ va, s1.frameAt va = s.frameAt va := by
        intro va
        rw [Kernel.frameAt, Kernel.frameAt, hs1.wordsAt]
      have hhandled : ∀ {s2 : Kernel}, Handled cur (s1.envs cur).envTf s1 s2 →
          Handled cur (s.envs cur).envTf s s2 := by
        intro s2 h2
        rw [henvs] at h2
        refine ⟨h2.live, ?_⟩
        intro e he
        have htouched := h2.touched e he
        simp only [SetFrame, ForkFrame, hfind, hframe, hs1.wordAt, henvs] at htouched
        exact htouched
      apply (dispatchTrapno_mayEnd hcur1 hlive1 faultVa).mono
      · exact fun _ _ h => hhandled h
      · exact fun _ h => hhandled h

/-- Handling a trap taken in user mode. -/
theorem trap_mayEnd (inb : Word → Byte) (faultVa : Word) (tf : Trapframe) :
  (trap inb faultVa tf).MayEnd s (fun _ _ => False)
    (Handled cur tf (s.setEnv cur { s.envs cur with envTf := tf }))
  := by
  rw [trap, mayEnd_bind, mayEnd_get, hcur]
  simp only
  rw [mayEnd_ite]
  constructor
  · -- the environment was destroyed by another one, and is freed now
    intro _
    rw [mayEnd_bind]
    apply (envFree_freed cur).mono _ (fun _ h => h.elim)
    intro _ s1 hfreed
    have h1 := hfreed.only
    rw [mayEnd_bind, mayEnd_modify]
    apply schedYield_settles.mono (fun _ _ h => h)
    rintro s2 ⟨hleft, hfree⟩
    refine ⟨hleft.live, .of_same ?_⟩
    intro e he
    have hne : e ≠ cur := by
      rintro rfl
      rw [hfree e h1.free] at he
      exact he h1.free
    have hsame := hleft.same e he
    rw [Kernel.setEnv_envs_of_ne _ _ hne]
    have henv : s1.envs e = s.envs e := h1.envs e hne
    simp only [henv] at hsame
    exact hsame
  · intro _
    rw [mayEnd_bind, setTf, mayEnd_modify]
    obtain ⟨s1, hs1⟩ : ∃ s1, s1 = s.setEnv cur { s.envs cur with envTf := tf } := ⟨_, rfl⟩
    rw [← hs1]
    have hcur1 : s1.curenv = some cur := by
      rw [hs1]
      exact hcur
    have henv1 : s1.envs cur = { s.envs cur with envTf := tf } := by
      rw [hs1, Kernel.setEnv_envs_self]
    have hlive1 : s1.Live cur := by
      rw [Kernel.Live, henv1]
      exact hlive
    have htf : (s1.envs cur).envTf = tf := by rw [henv1]
    rw [mayEnd_bind]
    have hdispatch := trapDispatch_mayEnd hcur1 hlive1 inb faultVa
    rw [htf] at hdispatch
    apply hdispatch.mono _ (fun _ h => h)
    intro _ s2 h2
    have hleave : ∀ {s3 : Kernel}, Left s2 s3 → Handled cur tf s1 s3 :=
      fun h3 => ⟨h3.live, h2.touched.trans h3.same⟩
    have hyield : (schedYield : Prog Kernel Unit).MayEnd s2 (fun _ _ => False)
        (Handled cur tf s1) :=
      schedYield_settles.mono (fun _ _ h => h) (fun _ h => hleave h.1)
    rw [mayEnd_bind, mayEnd_get]
    cases hc : s2.curenv with
    | none => exact hyield
    | some e =>
        simp only
        rw [mayEnd_ite]
        refine ⟨?_, fun _ => hyield⟩
        intro _
        by_cases hpg : (s2.envs e).envPgdir = none
        · have hpanic : (envRun e : Prog Kernel Unit) s2
              = .error (.panic "PADDR called with invalid kva 00000000") := by
            rw [envRun_run, if_pos hpg]
            rfl
          exact mayEnd_of_panic hpanic
        · rw [mayEnd_of_leave (envRun_eq hpg)]
          exact hleave (.running (h2.live e hc))

end Traps

/-! ### Runs -/

/-- The kernel with what is remembered of the past: the environments that `sys_exofork`
created on behalf of one with a non-zero I/O privilege level. -/
structure Sys where
  kernel : Kernel
  heir : Nat → Prop

/-- Whether the environment `e` may have a non-zero I/O privilege level. -/
def Sys.MayIo (m : Sys) (e : Nat) : Prop :=
  (m.kernel.envs e).envType = .ENV_TYPE_FS ∨ m.heir e

/-- The environment that is created in a turn is an heir if it is forked by an environment
with a non-zero I/O privilege level. -/
def Turn.heir (t : Turn) (m : Sys) (s' : Kernel) (e : Nat) : Prop :=
  if (s'.envs e).envId = (m.kernel.envs e).envId then
    m.heir e
  else
    t.tf.tfTrapno = T_SYSCALL ∧ Syscall.ofWord t.tf.tfRegs.regEax = some .SYS_exofork
      ∧ t.tf.tfEflags &&& FL_IOPL_MASK ≠ 0

/-- One turn of the machine. -/
structure Sys.Next (m : Sys) (t : Turn) (m' : Sys) : Prop where
  takes : t.Takes m.kernel m'.kernel
  heir : m'.heir = t.heir m m'.kernel

/-- A run of the machine whose turns have the property `P`. -/
inductive Sys.Run (P : Turn → Sys → Prop) : Sys → Sys → Prop
  | refl (m : Sys) : Run P m m
  | step {m m' m'' : Sys} {t : Turn} (hrun : Run P m m') (ht : P t m') (hnext : m'.Next t m'') :
    Run P m m''

/-- What `i386_init` leaves behind: the environments have the privileges of new ones, and
the file server has been given the I/O ports. -/
structure Booted (avail : Finset Nat) (s : Kernel) : Prop where
  wf : Wf avail ∅ (fun _ => 0) s
  live : CurLive s
  privilege : ∀ e < NENV, (s.envs e).envStatus ≠ .ENV_FREE →
    (s.envs e).envTf.privilege = initialTf.privilege ∨
      ((s.envs e).envType = .ENV_TYPE_FS
        ∧ (s.envs e).envTf.privilege
          = { initialTf.privilege with eflags := initialTf.tfEflags ||| FL_IOPL_MASK })

/-- Every environment is at privilege level 3 with interrupts enabled, and uses I/O ports
only if it may. -/
def Sys.InUserMode (m : Sys) : Prop :=
  ∀ e < NENV, (m.kernel.envs e).envStatus ≠ .ENV_FREE →
    (m.kernel.envs e).envTf.tfCs &&& 3 = 3 ∧ (m.kernel.envs e).envTf.tfDs &&& 3 = 3
      ∧ (m.kernel.envs e).envTf.tfEs &&& 3 = 3 ∧ (m.kernel.envs e).envTf.tfSs &&& 3 = 3
      ∧ (m.kernel.envs e).envTf.tfEflags &&& FL_IF ≠ 0
      ∧ ((m.kernel.envs e).envTf.tfEflags &&& FL_IOPL_MASK = 0 ∨ m.MayIo e)

/-- Privileges a user may ask for. -/
structure Privilege.Harmless (p : Privilege) (io : Prop) : Prop where
  cs : p.cs &&& 3 = 3
  ds : p.ds &&& 3 = 3
  es : p.es &&& 3 = 3
  ss : p.ss &&& 3 = 3
  vm : p.eflags &&& FL_VM = 0
  iopl : p.eflags &&& FL_IOPL_MASK = 0 ∨ io

/-- A turn in which the environment that runs keeps its data segments and, if it could
disable interrupts, leaves them enabled, and in which the frame it passes to
`sys_env_set_trapframe`, if it is installed, is harmless. The message it sends asks for
permissions only, and no page has more references than its counter can count. -/
structure Turn.Tame (avail : Finset Nat) (t : Turn) (m : Sys) : Prop where
  ds : t.tf.tfDs &&& 3 = 3
  es : t.tf.tfEs &&& 3 = 3
  intr : t.tf.tfEflags &&& FL_IOPL_MASK = FL_IOPL_MASK → t.tf.tfEflags &&& FL_IF ≠ 0
  frame : ∀ cur e, m.kernel.curenv = some cur → t.tf.tfTrapno = T_SYSCALL →
    Syscall.ofWord t.tf.tfRegs.regEax = some .SYS_env_set_trapframe →
    (t.saved cur).findEnv cur t.tf.tfRegs.regEdx true = some e →
    ((t.saved cur).wordAt (t.tf.tfRegs.regEcx + 48)).toNat < UTOP →
    ((t.saved cur).frameAt t.tf.tfRegs.regEcx).privilege.Harmless (m.MayIo e)
  modest : t.Modest
  fits : m.kernel.Fits avail (fun _ => 0)

/-- The invariant of runs. -/
structure Sys.Safe (m : Sys) : Prop where
  live : CurLive m.kernel
  privilege : ∀ e < NENV, (m.kernel.envs e).envStatus ≠ .ENV_FREE →
    (m.kernel.envs e).envTf.privilege.Harmless (m.MayIo e)
      ∧ (m.kernel.envs e).envTf.tfEflags &&& FL_IF ≠ 0

theorem Sys.Safe.inUserMode {m : Sys} (h : m.Safe) :
  m.InUserMode
  := by
  intro e he hlive
  obtain ⟨hp, hif⟩ := h.privilege e he hlive
  exact ⟨hp.cs, hp.ds, hp.es, hp.ss, hif, hp.iopl⟩

theorem Privilege.Harmless.imp {p : Privilege} {io io' : Prop} (h : p.Harmless io)
    (himp : io → io') :
  p.Harmless io'
  := ⟨h.cs, h.ds, h.es, h.ss, h.vm, h.iopl.imp_right himp⟩

theorem initialTf_harmless (io : Prop) :
  initialTf.privilege.Harmless io
  := ⟨by decide, by decide, by decide, by decide, by decide, Or.inl (by decide)⟩

/-- After boot no environment has more privileges than it should. -/
theorem Booted.safe {avail : Finset Nat} {s : Kernel} (h : Booted avail s) (heir : Nat → Prop) :
  Sys.Safe ⟨s, heir⟩
  := by
  refine ⟨h.live, ?_⟩
  intro e he hlive
  have heflags : ∀ env : Env, env.envTf.tfEflags = env.envTf.privilege.eflags := fun _ => rfl
  rw [heflags]
  obtain hp | ⟨htype, hp⟩ := h.privilege e he hlive
  · simp only at hp ⊢
    rw [hp]
    have hif : initialTf.tfEflags &&& FL_IF ≠ 0 := by decide
    exact ⟨initialTf_harmless _, hif⟩
  · simp only at hp ⊢
    rw [hp]
    have hif : (initialTf.tfEflags ||| FL_IOPL_MASK) &&& FL_IF ≠ 0 := by decide
    have hvm : (initialTf.tfEflags ||| FL_IOPL_MASK) &&& FL_VM = 0 := by decide
    have hinit := initialTf_harmless True
    exact ⟨⟨hinit.cs, hinit.ds, hinit.es, hinit.ss, hvm, Or.inr (Or.inl htype)⟩, hif⟩

theorem or_FL_IF (w : Word) :
  (w ||| FL_IF) &&& FL_IF ≠ 0 ∧ (w ||| FL_IF) &&& FL_VM = w &&& FL_VM
    ∧ (w ||| FL_IF) &&& FL_IOPL_MASK = w &&& FL_IOPL_MASK
  := by
  have hvm : FL_IF &&& FL_VM = 0 := by decide
  have hiopl : FL_IF &&& FL_IOPL_MASK = 0 := by decide
  refine ⟨?_, ?_, ?_⟩
  · intro h
    have hbit := congrArg (fun v => v.getLsbD 9) h
    have hset : FL_IF.getLsbD 9 = true := by decide
    simp only [BitVec.getLsbD_and, BitVec.getLsbD_or, hset] at hbit
    simp at hbit
  · rw [BitVec.and_or_distrib_right, hvm]
    exact BitVec.or_zero
  · rw [BitVec.and_or_distrib_right, hiopl]
    exact BitVec.or_zero

/-- The registers saved when a tame environment is interrupted are harmless. -/
theorem Interrupted.harmless {started saved : Trapframe} {io : Prop}
    (h : Interrupted started saved) (hp : started.privilege.Harmless io)
    (hif : started.tfEflags &&& FL_IF ≠ 0) (hds : saved.tfDs &&& 3 = 3)
    (hes : saved.tfEs &&& 3 = 3)
    (hintr : saved.tfEflags &&& FL_IOPL_MASK = FL_IOPL_MASK → saved.tfEflags &&& FL_IF ≠ 0) :
  saved.privilege.Harmless io ∧ saved.tfEflags &&& FL_IF ≠ 0
  := by
  constructor
  · constructor
    · exact h.cs
    · exact hds
    · exact hes
    · exact h.ss
    · exact h.vm.trans hp.vm
    · exact hp.iopl.imp_left (fun hzero => h.iopl.trans hzero)
  · by_cases hmask : started.tfEflags &&& FL_IOPL_MASK = FL_IOPL_MASK
    · exact hintr (h.iopl.trans hmask)
    · rw [h.intr hmask]
      exact hif

/-- A tame turn gives no environment more privileges than it should have. -/
theorem Sys.Safe.next {avail : Finset Nat} {m m' : Sys} {t : Turn} (h : m.Safe)
    (ht : t.Tame avail m) (hnext : m.Next t m') :
  m'.Safe
  := by
  obtain ⟨⟨hran, hinterrupted, hleft⟩, hheir⟩ := hnext
  have henvs : t.entered.envs = m.kernel.envs := by rw [hran.quiet]
  have hcureq : t.entered.curenv = m.kernel.curenv := by rw [hran.quiet]
  cases hcur : m.kernel.curenv with
  | none =>
      -- without a current environment the trap panics
      have hpanic : trap t.inb t.faultVa t.tf t.entered
          = .error (.panic "assertion failed: curenv") := by
        rw [trap, get_bind, hcureq, hcur]
        rfl
      rw [hpanic] at hleft
      cases hleft
  | some cur =>
  have hlive := h.live cur hcur
  have hlive' : t.entered.Live cur := by
    rw [Kernel.Live, henvs]
    exact hlive
  obtain ⟨hp, hif⟩ := h.privilege cur hlive.1 hlive.2
  have hsaved := (hinterrupted cur hcur hp.cs hp.vm).harmless hp hif ht.ds ht.es ht.intr
  have hhandled := (trap_mayEnd (hcureq.trans hcur) hlive' t.inb t.faultVa t.tf).of_leave hleft
  change Handled cur t.tf (t.saved cur) m'.kernel at hhandled
  have hsavedEnv : ∀ e, (t.saved cur).envs e = if e = cur then
      { m.kernel.envs cur with envTf := t.tf } else m.kernel.envs e := by
    intro e
    split
    case isTrue he => rw [he, Turn.saved, Kernel.setEnv_envs_self, henvs]
    case isFalse he => rw [Turn.saved, Kernel.setEnv_envs_of_ne _ _ he, henvs]
  -- before the call, every environment is as it should be
  have hbefore : ∀ e < NENV, ((t.saved cur).envs e).envStatus ≠ .ENV_FREE →
      ((t.saved cur).envs e).envTf.privilege.Harmless (m.MayIo e)
        ∧ ((t.saved cur).envs e).envTf.tfEflags &&& FL_IF ≠ 0 := by
    intro e he hst
    rw [hsavedEnv] at hst ⊢
    by_cases hee : e = cur
    · rw [if_pos hee, hee]
      exact hsaved
    · rw [if_neg hee] at hst ⊢
      exact h.privilege e he hst
  have hold : ∀ e, ((t.saved cur).envs e).envId = (m.kernel.envs e).envId
      ∧ ((t.saved cur).envs e).envType = (m.kernel.envs e).envType := by
    intro e
    rw [hsavedEnv]
    by_cases hee : e = cur
    · rw [if_pos hee, hee]
      exact ⟨rfl, rfl⟩
    · rw [if_neg hee]
      exact ⟨rfl, rfl⟩
  refine ⟨hhandled.live, ?_⟩
  intro e he hst
  obtain ⟨hst0, hid, htype, hpriv⟩ | ⟨hid, hpriv⟩ := hhandled.touched e hst
  · -- an environment that was there before
    have hio : m.MayIo e → m'.MayIo e := by
      rintro (hfs | hheir')
      · exact Or.inl ((htype.trans (hold e).2).trans hfs)
      · right
        rw [hheir, Turn.heir, if_pos (hid.trans (hold e).1)]
        exact hheir'
    rcases hpriv with hsame | ⟨hsys, hset, hfind, heip, hframe⟩
    · obtain ⟨hp', hif'⟩ := hbefore e he hst0
      have heflags := congrArg Privilege.eflags hsame
      refine ⟨?_, ?_⟩
      · rw [hsame]
        exact hp'.imp hio
      · change (m'.kernel.envs e).envTf.privilege.eflags &&& FL_IF ≠ 0
        rw [heflags]
        exact hif'
    · have hasked := (ht.frame cur e hcur hsys hset hfind heip).imp hio
      obtain ⟨hbit, hvm, hiopl⟩ := or_FL_IF ((t.saved cur).frameAt t.tf.tfRegs.regEcx).tfEflags
      constructor
      · rw [hframe]
        constructor
        · exact hasked.cs
        · exact hasked.ds
        · exact hasked.es
        · exact hasked.ss
        · exact hvm.trans hasked.vm
        · exact hasked.iopl.imp_left (fun hzero => hiopl.trans hzero)
      · change (m'.kernel.envs e).envTf.privilege.eflags &&& FL_IF ≠ 0
        rw [hframe]
        exact hbit
  · -- an environment that was created
    rcases hpriv with hinit | ⟨hsys, hfork, hparent⟩
    · constructor
      · rw [hinit]
        exact initialTf_harmless _
      · change (m'.kernel.envs e).envTf.privilege.eflags &&& FL_IF ≠ 0
        rw [hinit]
        decide
    · rw [hsavedEnv, if_pos rfl] at hparent
      constructor
      · rw [hparent]
        constructor
        · exact hsaved.1.cs
        · exact hsaved.1.ds
        · exact hsaved.1.es
        · exact hsaved.1.ss
        · exact hsaved.1.vm
        · by_cases hzero : t.tf.tfEflags &&& FL_IOPL_MASK = 0
          · exact Or.inl hzero
          · right
            right
            rw [hheir, Turn.heir, if_neg]
            · exact ⟨hsys, hfork, hzero⟩
            · rw [← (hold e).1]
              exact hid
      · change (m'.kernel.envs e).envTf.privilege.eflags &&& FL_IF ≠ 0
        rw [hparent]
        exact hsaved.2

theorem Sys.Safe.run {avail : Finset Nat} {m m' : Sys} (h : m.Safe)
    (hrun : Sys.Run (Turn.Tame avail) m m') :
  m'.Safe
  := by
  induction hrun with
  | refl => exact h
  | step hrun ht hnext ih => exact ih.next ht hnext

/-- In a run from boot of tame turns, environments stay in user mode. -/
theorem Sys.run_inUserMode {avail : Finset Nat} {m m' : Sys} (hboot : Booted avail m.kernel)
    (hrun : Sys.Run (Turn.Tame avail) m m') :
  m'.InUserMode
  := ((hboot.safe m.heir).run hrun).inUserMode

/-! ### An environment with a page -/

/-- Whether environments are users that have the privileges of new ones. -/
def Kernel.AllNew (s : Kernel) : Prop :=
  ∀ e < NENV, (s.envs e).envStatus ≠ .ENV_FREE →
    (s.envs e).envTf.privilege = initialTf.privilege ∧ (s.envs e).envType = .ENV_TYPE_USER

theorem Kernel.AllNew.same (h : s.AllNew) (hsame : SamePrivileges s s') :
  s'.AllNew
  := by
  intro e he hst
  obtain ⟨hst0, -, htype, hpriv⟩ := hsame e hst
  obtain ⟨hpriv0, htype0⟩ := h e he hst0
  exact ⟨hpriv.trans hpriv0, htype.trans htype0⟩

/-- An environment that is created is new. -/
theorem Kernel.AllNew.envAlloc (h : s.AllNew) :
  (envAlloc 0).MayEnd s (fun _ s' => s'.AllNew) (fun _ => False)
  := by
  apply (envAllocType_mayEnd .ENV_TYPE_USER 0).mono _ (fun _ h => h)
  intro r s' hr
  cases r with
  | error r => exact h.same hr.same
  | ok e0 =>
      simp only at hr
      intro e he hst
      by_cases hee : e = e0
      · rw [hee]
        exact ⟨congrArg Trapframe.privilege hr.tf, hr.type⟩
      · rw [hr.envs e hee] at hst ⊢
        exact h e he hst

theorem firstEnvs_mayEnd :
  firstEnvs.MayEnd s (fun _ s' => s'.AllNew) (fun _ => False)
  := by
  obtain ⟨s0, heq0, -, hfree⟩ := envInit_ok s
  have h0 : s0.AllNew := fun e he hst => (hst (hfree e he).1).elim
  rw [firstEnvs, mayEnd_of_bind_eq heq0, mayEnd_bind]
  apply h0.envAlloc.mono _ (fun _ h => h)
  intro _ s1 h1
  rw [mayEnd_bind]
  apply h1.envAlloc.mono _ (fun _ h => h)
  exact fun _ s2 h2 => mayEnd_pure _ |>.mpr h2

/-- An environment runs that has a cleared page at `va`, mapped with `perm`, and no other
environment does anything. -/
structure FirstPage (avail : Finset Nat) (va perm : Word) (s : Kernel) : Prop where
  wf : Wf avail ∅ (fun _ => 0) s
  new : s.AllNew
  curenv : s.curenv = some 0
  running : (s.envs 0).envStatus = .ENV_RUNNING
  fits : s.Fits avail (fun _ => 0)
  mapped : ∃ p < 2 ^ 20, s.pteAt 0 va = page2pa p ||| perm ||| PTE_P
    ∧ ∀ o < PGSIZE, s.mem (p * PGSIZE + o) = 0
  table : ∃ p < 2 ^ 20, s.pde 0 (PDX va) = tableEntry p

/-- Such an environment can be reached from boot. -/
theorem firstPage_ok (va perm : Word) (hva : UserPageAddr va) (hperm : ProperPerm perm) :
  ∃ s0 s1, firstEnvs (bootKernel 4) = .ok ((), s0)
    ∧ sysPageAlloc 0 va perm (s0.running 0) = .ok (0, s1)
    ∧ FirstPage (bootAvail 4) va perm s1
  := by
  obtain ⟨s0, heq0, htwo, l, hl, hlen⟩ := firstEnvs_ok (n := 4) (by decide) (by decide)
  obtain ⟨hlive0, -⟩ := htwo.live 0 (by decide)
  have hnew0 : s0.AllNew := firstEnvs_mayEnd.of_eq heq0
  have hnew := hnew0.same (Left.running hlive0).same
  have hwf := htwo.wf.running hlive0
  have hcur : (s0.running 0).curenv = some 0 := rfl
  have hrun : ((s0.running 0).envs 0).envStatus = .ENV_RUNNING := by
    simp [Kernel.running, Kernel.setEnv]
  have hlive : (s0.running 0).Live 0 := by
    use by decide
    rw [hrun]
    simp
  have hunset : ∀ p, (s0.running 0).mappings p = 0 := by
    rw [Ledger.mappings_eq_zero_iff, Kernel.running_ptes hlive0]
    intro a
    rw [htwo.unmapped a, refOf_zero]
  have hl' := hl.running htwo.wf hlive0
  obtain ⟨s1, p, hva', heq1, hp, hedit, hzero, hwf1, hfits, -⟩ :=
    Ledger.sysPageAlloc_first hwf (e := ⟨0, by decide⟩) hcur hlive hunset hl' (by omega) va perm hva hperm
  have hmo : MemOnly (s0.running 0) s1 :=
    (sysPageAlloc_keeps 0 va perm (s0.running 0)).of_eq heq1
  have hlt := hl'.avail_lt p (hl'.refs_free hp).1
  have hle := hl'.npages_le
  have hpte := ptes_pteAddr s1 ⟨0, by decide⟩ hva'
  rw [hedit.ptes, Function.update_self] at hpte
  use s0, s1, heq0, heq1
  constructor
  case wf => exact hwf1
  case new => exact hnew.same hmo.steady.same
  case curenv => exact hmo.curenv.trans hcur
  case running =>
    rw [hmo.envs]
    exact hrun
  case fits => exact hfits
  case mapped => exact ⟨p, by omega, hpte.symm, hzero⟩
  case table =>
    obtain hsame | ⟨-, hnew⟩ := hedit.pde ⟨0, by decide⟩ ⟨PDX va, PDX_lt_of_lt_UTOP hva'⟩
    · -- without a page table nothing would be mapped
      have hzero' : (s0.running 0).pde 0 (PDX va) = 0 := by
        have h0 := htwo.noTables ⟨0, by decide⟩ ⟨PDX va, PDX_lt_of_lt_UTOP hva'⟩
        rw [Kernel.pde, Kernel.running_pgdir hlive0]
        rw [Kernel.pde] at h0
        cases hpg : s0.pgdir 0 with
        | none => rfl
        | some pg =>
            rw [hpg] at h0
            simp only [Kernel.entry, Kernel.running_mem] at h0 ⊢
            exact h0
      have hsame' : s1.pde 0 (PDX va) = (s0.running 0).pde 0 (PDX va) := hsame
      rw [Kernel.pteAt, Kernel.pte, hsame', hzero',
        refOf_zero] at hpte
      have hpres : refOf (page2pa p ||| perm ||| PTE_P) = some p := refOf_mk (by omega) hperm.lt
      rw [hpte] at hpres
      simp only [refOf_zero, reduceCtorEq] at hpres
    · exact hnew

/-- An environment runs that has a cleared page at address `0`, and no other environment
does anything. -/
structure OnePage (avail : Finset Nat) (s : Kernel) : Prop where
  wf : Wf avail ∅ (fun _ => 0) s
  fits : s.Fits avail (fun _ => 0)
  new : s.AllNew
  curenv : s.curenv = some 0
  running : (s.envs 0).envStatus = .ENV_RUNNING
  mapped : ∃ p, refOf (s.pteAt 0 0) = some p ∧ ∀ o < PGSIZE, s.mem (p * PGSIZE + o) = 0

/-- Such an environment can be reached from boot. -/
theorem onePage_ok :
  ∃ s0 s1, firstEnvs (bootKernel 4) = .ok ((), s0)
    ∧ sysPageAlloc 0 0 (PTE_P ||| PTE_U ||| PTE_W) (s0.running 0) = .ok (0, s1)
    ∧ OnePage (bootAvail 4) s1
  := by
  obtain ⟨s0, s1, heq0, heq1, h⟩ :=
    firstPage_ok 0 (PTE_P ||| PTE_U ||| PTE_W) (by decide) (by decide)
  use s0, s1, heq0, heq1
  obtain ⟨p, hlt, hpte, hzero⟩ := h.mapped
  refine ⟨h.wf, h.fits, h.new, h.curenv, h.running, p, ?_, hzero⟩
  rw [hpte]
  exact refOf_mk hlt (by decide)

/-! ### Traps that are system calls -/

section Syscalls

variable {cur : Nat} {inb : Word → Byte} {faultVa : Word} {tf : Trapframe}
  (hcur : s.curenv = some cur) (hrun : (s.envs cur).envStatus = .ENV_RUNNING)
  (htype : (s.envs cur).envType ≠ .ENV_TYPE_GUEST) (hno : tf.tfTrapno = T_SYSCALL)
include hcur hrun htype hno

/-- A trap that is a system call. -/
theorem trap_called :
  trap inb faultVa tf s = (do
      let r ← syscall tf.tfRegs.regEax tf.tfRegs.regEdx tf.tfRegs.regEcx tf.tfRegs.regEbx
        tf.tfRegs.regEdi tf.tfRegs.regEsi
      let s ← get
      setTf cur { (s.envs cur).envTf with
        tfRegs := { (s.envs cur).envTf.tfRegs with regEax := r } }
      let s ← get
      match s.curenv with
      | some e =>
          if (s.envs e).envStatus = .ENV_RUNNING then
            envRun e
          else
            schedYield
      | none => schedYield : Prog Kernel Unit) (s.setEnv cur { s.envs cur with envTf := tf })
  := by
  have hdying : (s.envs cur).envStatus ≠ .ENV_DYING := by
    rw [hrun]
    simp
  obtain ⟨s1, hs1⟩ : ∃ s1, s1 = s.setEnv cur { s.envs cur with envTf := tf } := ⟨_, rfl⟩
  have htf : (s1.envs cur).envTf = tf := by rw [hs1, Kernel.setEnv_envs_self]
  have htype1 : (s1.envs cur).envType ≠ .ENV_TYPE_GUEST := by
    rw [hs1, Kernel.setEnv_envs_self]
    exact htype
  have hdispatch : trapDispatch inb faultVa cur s1 = (do
      let r ← syscall tf.tfRegs.regEax tf.tfRegs.regEdx tf.tfRegs.regEcx tf.tfRegs.regEbx
        tf.tfRegs.regEdi tf.tfRegs.regEsi
      let s ← get
      setTf cur { (s.envs cur).envTf with
        tfRegs := { (s.envs cur).envTf.tfRegs with regEax := r } } : Prog Kernel Unit) s1 := by
    rw [trapDispatch, get_bind, if_neg htype1, dispatchTrapno, get_bind]
    simp only [htf]
    rw [if_neg (by rw [hno]; decide), if_neg (by rw [hno]; decide), if_neg (by rw [hno]; decide),
      if_pos hno]
  rw [trap, get_bind, hcur]
  simp only
  rw [if_neg hdying, setTf, modify_bind, ← hs1]
  cases hsys : syscall tf.tfRegs.regEax tf.tfRegs.regEdx tf.tfRegs.regEcx tf.tfRegs.regEbx
      tf.tfRegs.regEdi tf.tfRegs.regEsi s1 with
  | ok p =>
      rw [bind_of_eq hsys] at hdispatch ⊢
      rw [bind_of_eq hdispatch]
      rfl
  | error stop =>
      rw [bind_of_error hsys] at hdispatch ⊢
      exact bind_of_error hdispatch

/-- A system call that returns goes on with the environment that made it, if it may. -/
theorem trap_returned {s2 : Kernel} {r : Word}
    (heq : syscall tf.tfRegs.regEax tf.tfRegs.regEdx tf.tfRegs.regEcx tf.tfRegs.regEbx
      tf.tfRegs.regEdi tf.tfRegs.regEsi (s.setEnv cur { s.envs cur with envTf := tf })
      = .ok (r, s2)) (hcur2 : s2.curenv = some cur) :
  trap inb faultVa tf s = (if (s2.envs cur).envStatus = .ENV_RUNNING then envRun cur
    else schedYield : Prog Kernel Unit) (s2.setEnv cur { s2.envs cur with
      envTf := { (s2.envs cur).envTf with
        tfRegs := { (s2.envs cur).envTf.tfRegs with regEax := r } } })
  := by
  obtain ⟨s3, hs3⟩ : ∃ s3, s3 = s2.setEnv cur { s2.envs cur with
    envTf := { (s2.envs cur).envTf with
      tfRegs := { (s2.envs cur).envTf.tfRegs with regEax := r } } } := ⟨_, rfl⟩
  have hst : (s3.envs cur).envStatus = (s2.envs cur).envStatus := by
    rw [hs3, Kernel.setEnv_envs_self]
  have hcur3 : s3.curenv = some cur := by
    rw [hs3]
    exact hcur2
  rw [trap_called hcur hrun htype hno, bind_of_eq heq, get_bind, setTf, modify_bind, ← hs3, get_bind,
    hcur3]
  simp only
  rw [hst]

/-- A system call that hands control on ends the trap. -/
theorem trap_left {s2 : Kernel}
    (heq : syscall tf.tfRegs.regEax tf.tfRegs.regEdx tf.tfRegs.regEcx tf.tfRegs.regEbx
      tf.tfRegs.regEdi tf.tfRegs.regEsi (s.setEnv cur { s.envs cur with envTf := tf })
      = .error (.leave s2)) :
  trap inb faultVa tf s = .error (.leave s2)
  := by
  rw [trap_called hcur hrun htype hno]
  exact bind_of_error heq

end Syscalls

/-- Registers with the privileges of a new environment may be those of an environment that
was started with them. -/
theorem interrupted_of_privilege {started saved : Trapframe}
    (h : started.privilege = initialTf.privilege) (h' : saved.privilege = initialTf.privilege) :
  Interrupted started saved
  := by
  have hflags : saved.tfEflags = started.tfEflags :=
    (congrArg Privilege.eflags h').trans (congrArg Privilege.eflags h).symm
  have hcs : saved.tfCs = initialTf.tfCs := congrArg Privilege.cs h'
  have hss : saved.tfSs = initialTf.tfSs := congrArg Privilege.ss h'
  constructor
  · rw [hcs]
    decide
  · rw [hss]
    decide
  · exact congrArg (fun w => w &&& FL_IOPL_MASK) hflags
  · exact congrArg (fun w => w &&& FL_VM) hflags
  · exact fun _ => congrArg (fun w => w &&& FL_IF) hflags

/-- A trap of an environment that has kept its privileges is a turn of the machine. -/
theorem takes_of_trap {cur : Nat} {tf : Trapframe} (hcur : s.curenv = some cur)
    (hnew : (s.envs cur).envTf.privilege = initialTf.privilege)
    (hpriv : tf.privilege = initialTf.privilege)
    (heq : trap (fun _ => 0) 0 tf s = .error (.leave s')) :
  Turn.Takes { entered := s, tf := tf } s s'
  := by
  constructor
  · exact .refl s
  · intro cur' hcur' _ _
    obtain rfl := Option.some.inj (hcur.symm.trans hcur')
    exact interrupted_of_privilege hnew hpriv
  · exact heq

/-- A system call that returns to the environment that made it is a turn of the machine. -/
theorem takes_syscall {cur : Nat} {tf : Trapframe} {r : Word} {s2 : Kernel}
    (hcur : s.curenv = some cur) (hrun : (s.envs cur).envStatus = .ENV_RUNNING)
    (htype : (s.envs cur).envType ≠ .ENV_TYPE_GUEST)
    (hnew : (s.envs cur).envTf.privilege = initialTf.privilege)
    (hno : tf.tfTrapno = T_SYSCALL) (hpriv : tf.privilege = initialTf.privilege)
    (heq : syscall tf.tfRegs.regEax tf.tfRegs.regEdx tf.tfRegs.regEcx tf.tfRegs.regEbx
      tf.tfRegs.regEdi tf.tfRegs.regEsi (s.setEnv cur { s.envs cur with envTf := tf })
      = .ok (r, s2))
    (hcur2 : s2.curenv = some cur) (hrun2 : (s2.envs cur).envStatus = .ENV_RUNNING)
    (hpg : (s2.envs cur).envPgdir ≠ none) :
  Turn.Takes { entered := s, tf := tf } s ((s2.setEnv cur { s2.envs cur with
    envTf := { (s2.envs cur).envTf with
      tfRegs := { (s2.envs cur).envTf.tfRegs with regEax := r } } }).running cur)
  := by
  apply takes_of_trap hcur hnew hpriv
  rw [trap_returned hcur hrun htype hno heq hcur2, if_pos hrun2]
  apply envRun_eq
  rw [Kernel.setEnv_envs_self]
  exact hpg

namespace OnePage

variable {avail : Finset Nat} (h : OnePage avail s)
include h

theorem live :
  s.Live 0
  := by
  refine ⟨by decide, ?_⟩
  rw [h.running]
  simp

theorem booted :
  Booted avail s
  := by
  constructor
  case wf => exact h.wf
  case live => exact curLive_of_eq h.curenv h.live
  case privilege => exact fun e he hst => Or.inl (h.new e he hst).1

theorem pgdir :
  ∃ pg, (s.envs 0).envPgdir = some pg
  := by
  obtain ⟨fl, hfl⟩ := h.wf.env
  obtain ⟨pg, hpg, -⟩ := h.live.pgdir hfl
  exact ⟨pg, hpg⟩

/-- A system call that returns to the environment is a turn of the machine. -/
theorem next (tf : Trapframe) {r : Word} {s2 : Kernel} (heir : Nat → Prop)
    (hno : tf.tfTrapno = T_SYSCALL) (hpriv : tf.privilege = initialTf.privilege)
    (heq : syscall tf.tfRegs.regEax tf.tfRegs.regEdx tf.tfRegs.regEcx tf.tfRegs.regEbx
      tf.tfRegs.regEdi tf.tfRegs.regEsi (s.setEnv 0 { s.envs 0 with envTf := tf }) = .ok (r, s2))
    (hcur2 : s2.curenv = some 0) (hrun2 : (s2.envs 0).envStatus = .ENV_RUNNING)
    (hpg2 : (s2.envs 0).envPgdir ≠ none) :
  ∃ m', Sys.Next ⟨s, heir⟩ { entered := s, tf := tf } m'
    ∧ (m'.kernel.envs 0).envStatus ≠ .ENV_FREE
    ∧ (m'.kernel.envs 0).envTf.privilege = (s2.envs 0).envTf.privilege
  := by
  obtain ⟨hnew, htype⟩ := h.new 0 (by decide) h.live.2
  obtain ⟨s3, hs3⟩ : ∃ s3, s3 = s2.setEnv 0 { s2.envs 0 with
    envTf := { (s2.envs 0).envTf with
      tfRegs := { (s2.envs 0).envTf.tfRegs with regEax := r } } } := ⟨_, rfl⟩
  obtain ⟨st, cpu, runs, henv, -, hst⟩ := s3.running_envs 0 0
  refine ⟨⟨s3.running 0, Turn.heir { entered := s, tf := tf } ⟨s, heir⟩ (s3.running 0)⟩,
    ⟨?_, rfl⟩, ?_, ?_⟩
  case refine_2 =>
    simp only
    rw [henv, hst rfl]
    simp
  case refine_3 =>
    simp only
    rw [henv, hs3, Kernel.setEnv_envs_self]
    rfl
  rw [hs3]
  apply takes_syscall h.curenv h.running _ hnew hno hpriv heq hcur2 hrun2 hpg2
  rw [htype]
  simp

end OnePage

/-- The registers with which an environment asks for its identifier. -/
def getenvidTf : Trapframe :=
  { initialTf with
    tfTrapno := T_SYSCALL
    tfRegs := { regEax := 2 } }

theorem Sys.run_inUserMode_getenvid :
  ∃ (m m' : Sys) (t : Turn), Booted (bootAvail 4) m.kernel ∧ t.Tame (bootAvail 4) m ∧ m.Next t m'
    ∧ m'.InUserMode
  := by
  obtain ⟨s0, s, -, -, h⟩ := onePage_ok
  obtain ⟨pg, hpg⟩ := h.pgdir
  obtain ⟨s1, hs1⟩ : ∃ s1, s1 = s.setEnv 0 { s.envs 0 with envTf := getenvidTf } := ⟨_, rfl⟩
  have henv : s1.envs 0 = { s.envs 0 with envTf := getenvidTf } := by
    rw [hs1, Kernel.setEnv_envs_self]
  have hcur : s1.curenv = some 0 := by
    rw [hs1]
    exact h.curenv
  have heq : sysGetenvid s1 = .ok ((s1.envs 0).envId, s1) := by
    rw [sysGetenvid, bind_of_eq (curenv_eq hcur), get_bind]
    rfl
  rw [hs1] at heq
  obtain ⟨m', hnext, -, -⟩ := h.next getenvidTf (fun _ => False) rfl rfl heq (hs1 ▸ hcur)
    (by rw [← hs1, henv]; exact h.running) (by rw [← hs1, henv, hpg]; simp)
  have htame : Turn.Tame (bootAvail 4) { entered := s, tf := getenvidTf } ⟨s, fun _ => False⟩ := by
    have hds : getenvidTf.tfDs &&& 3 = 3 := by decide
    have hes : getenvidTf.tfEs &&& 3 = 3 := by decide
    have hif : getenvidTf.tfEflags &&& FL_IF ≠ 0 := by decide
    have hmodest : Turn.Modest { entered := s, tf := getenvidTf } := by
      rintro - sys hsys rfl
      cases hsys
    exact ⟨hds, hes, fun _ => hif, (fun _ _ _ _ hsys => by cases hsys), hmodest, h.fits⟩
  exact ⟨_, _, _, h.booted, htame, hnext,
    Sys.run_inUserMode h.booted (.step (.refl _) htame hnext)⟩

/-- The registers with which an environment passes the frame at address `0` to
`sys_env_set_trapframe` for itself. -/
def setTrapframeTf : Trapframe :=
  { initialTf with
    tfTrapno := T_SYSCALL
    tfRegs := { regEax := 9 } }

/-- Addresses in the page at address `0`. -/
theorem OnePage.byteAt {avail : Finset Nat} (h : OnePage avail s) {tf : Trapframe} {pg i : Nat}
    (hpg : (s.envs 0).envPgdir = some pg) (hi : i < 4096) :
  (s.setEnv 0 { s.envs 0 with envTf := tf }).translate pg (BitVec.ofNat 32 i) ≠ none
    ∧ (s.setEnv 0 { s.envs 0 with envTf := tf }).byteAt (BitVec.ofNat 32 i) = 0
  := by
  obtain ⟨p, hp, hzero⟩ := h.mapped
  obtain ⟨s1, hs1⟩ : ∃ s1, s1 = s.setEnv 0 { s.envs 0 with envTf := tf } := ⟨_, rfl⟩
  rw [← hs1]
  have htoNat : (BitVec.ofNat 32 i).toNat = i := by
    rw [BitVec.toNat_ofNat]
    omega
  have hpdx : PDX (BitVec.ofNat 32 i) = PDX 0 := by
    rw [PDX_eq, PDX_eq, htoNat, Nat.div_eq_of_lt (by omega)]
    rfl
  have hptx : PTX (BitVec.ofNat 32 i) = PTX 0 := by
    rw [PTX_eq, PTX_eq, htoNat, Nat.div_eq_of_lt hi]
    rfl
  have hpte : refOf (s.pteAt 0 (BitVec.ofNat 32 i)) = some p := by
    rw [Kernel.pteAt, hpdx, hptx]
    exact hp
  have htrans := translate_of_refOf h.live.2 hpg hpte
  have htrans1 : s1.translate pg (BitVec.ofNat 32 i)
      = some (p * PGSIZE + PGOFF (BitVec.ofNat 32 i)) := by
    rw [← htrans, hs1]
    rfl
  have henv : (s1.envs 0).envPgdir = some pg := by
    rw [hs1, Kernel.setEnv_envs_self]
    exact hpg
  have hcur : s1.curenv = some 0 := by
    rw [hs1]
    exact h.curenv
  have hmem : s1.mem = s.mem := by
    rw [hs1]
    rfl
  constructor
  · rw [htrans1]
    simp
  · rw [Kernel.byteAt, hcur, Option.bind_some, henv]
    simp only [htrans1, Option.elim_some]
    rw [hmem]
    apply hzero
    rw [PGOFF, BitVec.toNat_and]
    exact Nat.lt_of_le_of_lt Nat.and_le_right (by decide)

/-- Words made of cleared bytes. -/
theorem wordsAt_zero (va : Word) (n : Nat) (h : ∀ i < 4 * n, s.byteAt (va + BitVec.ofNat 32 i) = 0)
    (i : Nat) :
  (s.wordsAt va n).getD i 0 = 0
  := by
  induction n generalizing va i with
  | zero => rfl
  | succ n ih =>
      cases i with
      | zero =>
          have h0 : s.byteAt va = 0 := by simpa using h 0 (by omega)
          have h1 : s.byteAt (va + 1) = 0 := h 1 (by omega)
          have h2 : s.byteAt (va + 2) = 0 := h 2 (by omega)
          have h3 : s.byteAt (va + 3) = 0 := h 3 (by omega)
          change s.wordAt va = 0
          rw [Kernel.wordAt, h0, h1, h2, h3]
          rfl
      | succ i =>
          apply ih
          intro j hj
          have hadd : va + 4 + BitVec.ofNat 32 j = va + BitVec.ofNat 32 (4 + j) := by
            rw [BitVec.add_assoc, BitVec.ofNat_add]
            rfl
          rw [hadd]
          exact h (4 + j) (by omega)

/-- An environment that passes a cleared frame to `sys_env_set_trapframe` for itself is
given the selectors in it, and is no longer at privilege level 3. -/
theorem Sys.not_run_inUserMode :
  ¬ ∀ (avail : Finset Nat) (m m' : Sys), Booted avail m.kernel →
    Sys.Run (fun _ _ => True) m m' → m'.InUserMode
  := by
  intro hall
  obtain ⟨s0, s, -, -, h⟩ := onePage_ok
  obtain ⟨pg, hpg⟩ := h.pgdir
  obtain ⟨s1, hs1⟩ : ∃ s1, s1 = s.setEnv 0 { s.envs 0 with envTf := setTrapframeTf } := ⟨_, rfl⟩
  have henv1 : s1.envs 0 = { s.envs 0 with envTf := setTrapframeTf } := by
    rw [hs1, Kernel.setEnv_envs_self]
  have hcur1 : s1.curenv = some 0 := by
    rw [hs1]
    exact h.curenv
  have hpg1 : (s1.envs 0).envPgdir = some pg := by
    rw [henv1]
    exact hpg
  have hbyte : ∀ i < 4096, s1.translate pg (BitVec.ofNat 32 i) ≠ none
      ∧ s1.byteAt (BitVec.ofNat 32 i) = 0 := by
    intro i hi
    rw [hs1]
    exact h.byteAt hpg hi
  have hzeroAdd : ∀ i, (0 : Word) + BitVec.ofNat 32 i = BitVec.ofNat 32 i :=
    fun i => BitVec.zero_add (BitVec.ofNat 32 i)
  have hword : s1.wordAt 48 = 0 := by
    have hzero := wordsAt_zero (s := s1) 48 1 (fun i hi => by
      have hadd : (48 : Word) + BitVec.ofNat 32 i = BitVec.ofNat 32 (48 + i) := by
        rw [BitVec.ofNat_add]
        rfl
      rw [hadd]
      exact (hbyte (48 + i) (by omega)).2) 0
    exact hzero
  obtain ⟨s2, heq2, h2, -⟩ := kernLoad32_ok (A := fun _ => True) hcur1 hpg1 48 (fun i hi => by
    have hadd : (48 : Word) + BitVec.ofNat 32 i = BitVec.ofNat 32 (48 + i) := by
      rw [BitVec.ofNat_add]
      rfl
    rw [hadd]
    exact ⟨(hbyte (48 + i) (by omega)).1, trivial⟩)
  have hcur2 : s2.curenv = some 0 := h2.reads.memOnly.curenv.trans hcur1
  have henv2 : s2.envs = s1.envs := h2.reads.memOnly.envs
  obtain ⟨s3, heq3, h3⟩ := kernLoadWords_ok (A := fun _ => True) hcur2
    (by rw [henv2]; exact hpg1) 0 17 (fun i hi => by
      rw [h2.reads.translate, hzeroAdd]
      exact ⟨(hbyte i (by omega)).1, trivial⟩)
  have henv3 : s3.envs = s1.envs := h3.reads.memOnly.envs.trans henv2
  have hcur3 : s3.curenv = some 0 := h3.reads.memOnly.curenv.trans hcur2
  have hzero : ∀ i, (s2.wordsAt 0 17).getD i 0 = 0 := by
    intro i
    rw [h2.reads.wordsAt]
    apply wordsAt_zero
    intro j hj
    rw [hzeroAdd]
    exact (hbyte j (by omega)).2
  obtain ⟨frame, hframe⟩ : ∃ frame, frame = Trapframe.ofWords (fun i => (s2.wordsAt 0 17).getD i 0)
    := ⟨_, rfl⟩
  have heq : sysEnvSetTrapframe 0 0 s1 = .ok (0, s3.setEnv 0 { s3.envs 0 with
      envTf := { frame with tfEflags := frame.tfEflags ||| FL_IF } }) := by
    rw [sysEnvSetTrapframe, bind_of_eq (envid2env_eq hcur1 0 true)]
    change (do
      let eip ← kernLoad32 48
      if eip.toNat ≥ UTOP then
        pure (-1)
      else
        let ws ← kernLoadWords 0 17
        let frame := Trapframe.ofWords (fun i => ws.getD i 0)
        modify (fun s => s.setEnv 0 { s.envs 0 with
          envTf := { frame with tfEflags := frame.tfEflags ||| FL_IF } })
        pure 0 : Prog Kernel Word) s1 = _
    rw [bind_of_eq heq2, hword, if_neg (by decide), bind_of_eq heq3, hframe]
    rfl
  rw [hs1] at heq
  have henv4 := Kernel.setEnv_envs_self s3 0 { s3.envs 0 with
    envTf := { frame with tfEflags := frame.tfEflags ||| FL_IF } }
  obtain ⟨m', hnext, hlive', hpriv⟩ := h.next setTrapframeTf (fun _ => False) rfl rfl heq hcur3
    (by rw [henv4, henv3, henv1]; exact h.running) (by rw [henv4, henv3, henv1, hpg]; simp)
  obtain ⟨hcs, -⟩ := hall _ _ _ h.booted (.step (.refl _) trivial hnext) 0 (by decide) hlive'
  have hzeroCs : (m'.kernel.envs 0).envTf.tfCs = 0 := by
    have hcs' : (m'.kernel.envs 0).envTf.tfCs = frame.tfCs := by
      apply (congrArg Privilege.cs hpriv).trans
      rw [henv4]
      rfl
    rw [hcs', hframe, Trapframe.ofWords]
    simp only
    rw [hzero]
    rfl
  rw [hzeroCs] at hcs
  exact absurd hcs (by decide)

end Jos
