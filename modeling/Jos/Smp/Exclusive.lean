import Jos.Kern.Boot
import Jos.Smp.Calls

/-!
# Running on several processors

A processor that was started, that runs an environment or that is halted enters the kernel
at any time.  In every run in which no environment reaches for one that runs elsewhere,
every environment is run by one processor at most.
-/

namespace Jos.Smp

open Bytes Prog

variable {s s' s'' : State}

/-! ### Steps -/

/-- Why a processor enters the kernel. -/
inductive Cause where
  /-- It was started. -/
  | start
  /-- It is trapped in user mode. -/
  | user (tf : Trapframe)
  /-- It is interrupted while it is halted. -/
  | halted (tf : Trapframe)

/-- An entry of the kernel. -/
structure Entry where
  cpu : Nat
  cause : Cause
  decisions : Decisions

namespace Entry

/-- Whether the kernel can be entered so. Only hardware interrupts reach a halted processor. -/
def Possible (t : Entry) (s : State) : Prop :=
  t.cpu < s.ncpu ∧
  match t.cause with
  | .start => (s.cpus t.cpu).cpuStatus = .CPU_STARTED ∧ s.runs t.cpu = none
  | .user tf => (s.cpus t.cpu).cpuStatus = .CPU_STARTED ∧ s.runs t.cpu ≠ none
      ∧ tf.tfCs &&& 3 = 3
  | .halted tf => (s.cpus t.cpu).cpuStatus = .CPU_HALTED ∧ tf.tfCs = GD_KT
      ∧ 32 ≤ tf.tfTrapno.toNat ∧ tf.tfTrapno.toNat ≠ 48

/-- What is done in the kernel. -/
def program (t : Entry) : Prog State Unit :=
  match t.cause with
  | .start => mpMain
  | .user tf => trap t.decisions tf
  | .halted tf => trap t.decisions tf

/-- The kernel with the lock held by the processor. -/
def locked (t : Entry) (s : State) : State :=
  { s with cpunum := t.cpu }

/-- The kernel is entered in `s` and left in `s'`. -/
structure Takes (t : Entry) (s s' : State) : Prop where
  possible : t.Possible s
  left : t.program (t.locked s) = .error (.leave s')

/-- The kernel with the processor marked as started. -/
def started (t : Entry) (s : State) : State :=
  (t.locked s).setCpu { s.cpus t.cpu with cpuStatus := .CPU_STARTED }

/-- The kernel with the registers of the trapped environment saved. -/
def saved (t : Entry) (s : State) (cur : Nat) (tf : Trapframe) : State :=
  (t.started s).setEnv cur { s.envs cur with envTf := tf }

/-- The system call that is made, if any, does not reach for an environment that runs
elsewhere, does not make its caller runnable when there is no other environment to run, and
runs another program only on a stack below `UTOP`. -/
def Tame (t : Entry) (s : State) : Prop :=
  match t.cause with
  | .user tf => ∀ cur, s.runs t.cpu = some cur → s.status cur ≠ .ENV_DYING →
      tf.tfTrapno.toNat = 48 → CallOk (t.saved s cur tf) t.decisions tf.tfRegs.regEax
        tf.tfRegs.regEdx tf.tfRegs.regEcx tf.tfRegs.regEbx tf.tfRegs.regEdi
  | _ => True

end Entry

/-- The environments that are marked stay so until they are freed. -/
def MarkedOrFreed (s s' : State) : Prop :=
  ∀ e, s.status e = .ENV_DYING → s'.status e = .ENV_DYING ∨ s'.status e = .ENV_FREE

theorem Marked.orFreed (h : Marked s s') :
  MarkedOrFreed s s'
  := fun e he => Or.inl (h e he)

/-! ### One step -/

theorem Entry.runs_started (t : Entry) (s : State) (c : Nat) :
  (t.started s).runs c = s.runs c
  := by
  unfold Entry.started Entry.locked
  by_cases hc : c = t.cpu
  · rw [hc]
    simp only [State.runs, State.setCpu, Function.update_self]
  · simp only [State.runs, State.setCpu, Function.update_of_ne hc]

/-- When the lock is taken, the other processors run environments of their own. -/
theorem Exclusive.started (hs : Exclusive s) (t : Entry) :
  Others (t.started s)
  := by
  refine ⟨?_, ?_, ?_, ?_, ?_, hs.freed⟩
  · intro c c' e hc hc'
    rw [t.runs_started] at hc hc'
    exact hs.one hc hc'
  · intro c e _ hc
    rw [t.runs_started] at hc
    exact hs.busy hc
  · intro c hcn hc
    have hne : c ≠ t.cpu := hcn
    rw [t.runs_started]
    simp only [Entry.started, State.setCpu, Entry.locked, Function.update_of_ne hne] at hc
    exact hs.halted hc
  · simp [Entry.started, State.setCpu, Entry.locked]
  · exact hs.envs.congr (fun _ => rfl) (fun _ => rfl) rfl (fun _ => Iff.rfl)

/-- A processor that was started, and has not run anything. -/
theorem Entry.start_ok (hs : Exclusive s) (t : Entry) (hcpu : (s.cpus t.cpu).cpuStatus = .CPU_STARTED)
    (hcur : s.runs t.cpu = none) :
  Leaves mpMain (t.locked s)
  := by
  have hothers : Others (t.locked s) := by
    refine ⟨hs.one, fun _ hc => hs.busy hc, fun _ hc => hs.halted hc, ?_, ?_, hs.freed⟩
    · change (s.cpus t.cpu).cpuStatus ≠ .CPU_HALTED
      rw [hcpu]
      simp
    · exact hs.envs.congr (fun _ => rfl) (fun _ => rfl) rfl (fun _ => Iff.rfl)
  exact schedYield_leaves (hothers.entered hcur)

/-- A halted processor that is interrupted. -/
theorem Entry.halted_ok (hs : Exclusive s) (t : Entry) {tf : Trapframe} (hcur : s.runs t.cpu = none)
    (hcs : tf.tfCs = GD_KT) (hcall : tf.tfTrapno.toNat ≠ 48) :
  (trap t.decisions tf).MayEnd (t.locked s) (fun _ _ => False)
    (fun s' => Exclusive s' ∧ Marked s s')
  := by
  have hnone : (t.started s).curenv = none := (t.runs_started s t.cpu).trans hcur
  have hentered : Entered (t.started s) := (hs.started t).entered hnone
  have hrun : Running (t.started s) := by
    intro cur h
    rw [hnone] at h
    cases h
  have huser : ¬ tf.tfCs &&& 3 = 3 := by
    rw [hcs]
    decide
  rw [trap, mayEnd_bind, mayEnd_modify]
  change MayEnd _ (t.started s) _ _
  rw [if_neg huser]
  have hsafe := trapDispatch_safe hentered hrun t.decisions none
    (fun h => (hcall h).elim)
  exact (hsafe.trapReturn).mono (fun _ _ h => h) (fun _ h => h)

/-- A processor that traps in user mode. -/
theorem Entry.user_ok (hs : Exclusive s) (t : Entry) {tf : Trapframe} {cur : Nat}
    (hcur : s.runs t.cpu = some cur) (huser : tf.tfCs &&& 3 = 3)
    (htame : s.status cur ≠ .ENV_DYING → tf.tfTrapno.toNat = 48 →
      CallOk (t.saved s cur tf) t.decisions tf.tfRegs.regEax tf.tfRegs.regEdx tf.tfRegs.regEcx
        tf.tfRegs.regEbx tf.tfRegs.regEdi) :
  (trap t.decisions tf).MayEnd (t.locked s) (fun _ _ => False)
    (fun s' => Exclusive s' ∧ MarkedOrFreed s s')
  := by
  obtain ⟨s1, hs1⟩ : ∃ s1, s1 = t.started s := ⟨_, rfl⟩
  have hothers : Others s1 := by
    rw [hs1]
    exact hs.started t
  have hcur1 : s1.curenv = some cur := by
    rw [hs1]
    exact (t.runs_started s t.cpu).trans hcur
  obtain ⟨hlt, hbusy⟩ := hs.busy hcur
  have hstatus : ∀ e, s1.status e = s.status e := by
    intro e
    rw [hs1]
    rfl
  rw [trap, mayEnd_bind, mayEnd_modify]
  change MayEnd _ (t.started s) _ _
  rw [← hs1, if_pos huser, mayEnd_bind, mayEnd_get]
  simp only [hcur1]
  rw [mayEnd_ite]
  constructor
  · -- the environment was marked: it is freed
    intro hdying
    have hfree : s1.status cur ≠ .ENV_FREE := by
      rw [State.status, hdying]
      simp
    rw [mayEnd_bind]
    apply (envFree_ok s1 cur).mono
    · intro _ s2 h
      rw [mayEnd_bind, mayEnd_modify]
      apply (schedYield_leaves (h.setCurenv hothers hlt hfree hcur1)).mono
      · exact fun _ _ h' => h'
      · rintro s' ⟨hex, hkept⟩
        refine ⟨hex, ?_⟩
        intro e he
        by_cases hecur : e = cur
        · right
          rw [hecur]
          exact (hkept cur (Or.inl h.status)).trans h.status
        · left
          have he2 : s2.status e = .ENV_DYING := by
            rw [State.status, h.others e hecur]
            exact (hstatus e).trans he
          exact (hkept e (Or.inr he2)).trans he2
    · exact fun _ h => h.elim
  · intro hdying
    have hrunning : s1.status cur = .ENV_RUNNING := by
      obtain h | h := hbusy
      · exact (hstatus cur).trans h
      · exact (hdying ((hstatus cur).trans h)).elim
    have hs2 : t.saved s cur tf = s1.setEnv cur { s1.envs cur with envTf := tf } := by
      rw [hs1]
      rfl
    have halike2 : Alike s1 (s1.setEnv cur { s1.envs cur with envTf := tf }) :=
      .setEnv s1 cur rfl rfl rfl
    rw [mayEnd_bind, mayEnd_modify, ← hs2]
    rw [← hs2] at halike2
    have hcur2 : (t.saved s cur tf).curenv = some cur := halike2.curenv.trans hcur1
    have hrun2 : Running (t.saved s cur tf) := by
      intro x hx
      rw [hcur2] at hx
      obtain rfl := Option.some.inj hx
      exact (halike2.status cur).trans hrunning
    have hentered : Entered (t.saved s cur tf) := by
      refine ⟨halike2.others hothers, ?_, ?_⟩
      · intro x hx
        rw [hrun2 x hx]
        rw [hcur2] at hx
        obtain rfl := Option.some.inj hx
        exact ⟨hlt, by simp, by simp⟩
      · intro x hx hxrun
        rw [hrun2 x hx] at hxrun
        cases hxrun
    have hnotdying : s.status cur ≠ .ENV_DYING := fun h => hdying ((hstatus cur).trans h)
    have hsafe := trapDispatch_safe hentered hrun2 t.decisions (some cur)
      (fun h => ⟨⟨cur, hcur2⟩, htame hnotdying h⟩)
    apply (hsafe.trapReturn).mono
    · exact fun _ _ h => h
    · rintro s' ⟨hex, hmark⟩
      refine ⟨hex, Marked.orFreed ?_⟩
      intro e he
      exact hmark e (halike2.marked e ((hstatus e).trans he))

theorem Entry.Takes.exclusive {t : Entry} (hs : Exclusive s) (h : t.Takes s s') (htame : t.Tame s) :
  Exclusive s' ∧ MarkedOrFreed s s'
  := by
  obtain ⟨⟨-, hposs⟩, hleft⟩ := h
  unfold Entry.program at hleft
  unfold Entry.Tame at htame
  cases hcause : t.cause with
  | start =>
      simp only [hcause] at hposs hleft
      obtain ⟨hex, hkept⟩ := (t.start_ok hs hposs.1 hposs.2).of_leave hleft
      exact ⟨hex, Marked.orFreed hkept.marked⟩
  | user tf =>
      simp only [hcause] at hposs hleft htame
      obtain ⟨cur, hcur⟩ := Option.ne_none_iff_exists'.mp hposs.2.1
      exact (t.user_ok hs hcur hposs.2.2 (htame cur hcur)).of_leave hleft
  | halted tf =>
      simp only [hcause] at hposs hleft
      obtain ⟨hhalt, hcs, -, hcall⟩ := hposs
      obtain ⟨hex, hmark⟩ := (t.halted_ok hs (hs.halted hhalt) hcs hcall).of_leave hleft
      exact ⟨hex, hmark.orFreed⟩

/-! ### Starting -/

/-- What `env_init` has done once it has gone through `n` environments. -/
structure EnvsFree (n : Nat) (s s' : State) : Prop where
  ncpu : s'.ncpu = s.ncpu
  cpus : s'.cpus = s.cpus
  cpunum : s'.cpunum = s.cpunum
  freed : s'.freed = s.freed
  free : ∀ e < n, s'.status e = .ENV_FREE ∧ (s'.envs e).envLink = some (e + 1)

/-- What `env_init` has done. -/
structure EnvInit (s s' : State) : Prop where
  ncpu : s'.ncpu = s.ncpu
  cpus : s'.cpus = s.cpus
  cpunum : s'.cpunum = s.cpunum
  freed : s'.freed = s.freed
  envs : EnvsOk s'
  status : ∀ e < NENV, s'.status e = .ENV_FREE
  list : s'.envFreeList = some 0

theorem envInit_ok (s : State) :
  envInit.Ends s (fun _ s' => EnvInit s s') (fun _ => False)
  := by
  have hloop : (Prog.forUp 0 NENV (fun i => modify (fun s : State => s.setEnv i { s.envs i with
      envStatus := .ENV_FREE
      envId := 0
      envLink := some (i + 1) }))).Ends s (fun _ s' => EnvsFree NENV s s') (fun _ => False) := by
    apply Prog.ends_forUp_zero (fun n s' => EnvsFree n s s')
    · intro i s' _ h
      rw [Prog.ends_modify]
      refine ⟨h.ncpu, h.cpus, h.cpunum, h.freed, ?_⟩
      intro e he
      by_cases hei : e = i
      · rw [hei, State.status_setEnv_self, State.envs_setEnv_self]
        exact ⟨rfl, rfl⟩
      · rw [State.status_setEnv_of_ne _ _ hei, State.envs_setEnv_of_ne _ _ hei]
        apply h.free e
        omega
    · exact ⟨rfl, rfl, rfl, rfl, fun e he => (Nat.not_lt_zero e he).elim⟩
  rw [envInit, ends_bind]
  apply hloop.mono
  · intro _ s1 h
    rw [ends_bind, ends_modify, ends_modify]
    obtain ⟨s2, hs2⟩ : ∃ s2, s2 =
        s1.setEnv (NENV - 1) { s1.envs (NENV - 1) with envLink := none } := ⟨_, rfl⟩
    rw [← hs2]
    have hst : ∀ e < NENV, s2.status e = .ENV_FREE := by
      intro e he
      rw [hs2]
      by_cases hlast : e = NENV - 1
      · rw [hlast, State.status_setEnv_self]
        exact (h.free (NENV - 1) (by decide)).1
      · rw [State.status_setEnv_of_ne _ _ hlast]
        exact (h.free e he).1
    have henvs : EnvsOk { s2 with envFreeList := some 0 } := by
      constructor
      · exact fun e he hne => (hne (hst e he)).elim
      · refine ⟨List.range' 0 (NENV - 1) ++ [0 + (NENV - 1)], ?_, ?_, ?_⟩
        · apply chain_range'
          · intro e _ he
            have hne : e ≠ NENV - 1 := by omega
            change (s2.envs e).envLink = some (e + 1)
            rw [hs2, State.envs_setEnv_of_ne _ _ hne]
            exact (h.free e (by omega)).2
          · change (s2.envs (0 + (NENV - 1))).envLink = none
            rw [Nat.zero_add, hs2, State.envs_setEnv_self]
        · rw [← List.range'_1_concat]
          exact List.nodup_range'
        · intro e he
          have hlt : e < NENV := by
            rw [List.mem_append, List.mem_range'_1, List.mem_singleton] at he
            simp only [NENV] at he ⊢
            omega
          exact ⟨hlt, hst e hlt⟩
    rw [hs2] at henvs hst ⊢
    exact ⟨h.ncpu, h.cpus, h.cpunum, h.freed, henvs, hst, rfl⟩
  · exact fun _ h => h.elim

/-- The kernel has been started. -/
def Booted (d : Decisions) (s : State) : Prop :=
  ∃ s0, (∀ c, s0.cpus c = {}) ∧ s0.freed = [] ∧ i386Init d s0 = .error (.leave s)

theorem Booted.exclusive {d : Decisions} (h : Booted d s) :
  Exclusive s
  := by
  obtain ⟨s0, hcpus, hfreed, hleft⟩ := h
  have hinit : (i386Init d).MayEnd s0 (fun _ _ => True) (fun s' => Exclusive s') := by
    rw [i386Init, mayEnd_bind]
    apply (envInit_ok s0).mayEnd.mono
    · intro _ s1 h1
      rw [mayEnd_bind, mayEnd_modify]
      obtain ⟨s2, hs2⟩ : ∃ s2, s2 = { s1 with cpus := fun c =>
          if c < s1.ncpu then { s1.cpus c with cpuStatus := .CPU_STARTED } else s1.cpus c } :=
        ⟨_, rfl⟩
      rw [← hs2]
      have hcpu : ∀ c, s2.runs c = none ∧ (s2.cpus c).cpuStatus ≠ .CPU_HALTED := by
        intro c
        rw [hs2, State.runs]
        simp only
        rw [h1.cpus, hcpus c]
        split
        · exact ⟨rfl, by simp⟩
        · exact ⟨rfl, by simp⟩
      have hentered : Entered s2 := by
        apply Others.entered
        · refine ⟨?_, ?_, ?_, ?_, ?_, ?_⟩
          · intro c c' e hc
            rw [(hcpu c).1] at hc
            cases hc
          · intro c e _ hc
            rw [(hcpu c).1] at hc
            cases hc
          · exact fun _ _ => (hcpu _).1
          · exact (hcpu _).2
          · rw [hs2]
            exact h1.envs.congr (fun _ => rfl) (fun _ => rfl) rfl (fun _ => Iff.rfl)
          · intro f hf
            rw [hs2] at hf
            rw [h1.freed, hfreed] at hf
            cases hf
        · exact (hcpu _).1
      have hrun : Running s2 := by
        intro cur hcur
        rw [State.curenv_eq, (hcpu _).1] at hcur
        cases hcur
      rw [mayEnd_bind]
      apply MayEnd.mono (envCreate_safe hentered hrun d .ENV_TYPE_USER)
      · rintro _ s3 ⟨hs3, -, -⟩
        apply (schedYield_leaves hs3).mono
        · exact fun _ _ h => h.elim
        · exact fun _ h => h.1
      · exact fun _ h => h.1
    · exact fun _ h => h.elim
  exact hinit.of_leave hleft

/-! ### Runs -/

/-- A run in which every entry of the kernel is as `P` says. -/
inductive Run (P : Entry → State → Prop) (s : State) : State → Prop where
  | refl : Run P s s
  | step {s' s'' : State} {t : Entry} : Run P s s' → t.Takes s' s'' → P t s' → Run P s s''

/-- Every environment is run by one processor at most, it is running or dying while it is, and
none was freed while another processor was running it. -/
structure OneProcessor (s : State) : Prop where
  one : ∀ c c' e, s.runs c = some e → s.runs c' = some e → c = c'
  busy : ∀ c e, s.runs c = some e → s.status e = .ENV_RUNNING ∨ s.status e = .ENV_DYING
  freed : ∀ f ∈ s.freed, ∀ c, c ≠ f.cpu → (f.cpus c).cpuEnv ≠ some f.env

theorem Exclusive.oneProcessor (hs : Exclusive s) :
  OneProcessor s
  := ⟨fun _ _ _ => hs.one, fun _ _ hc => (hs.busy hc).2, hs.freed⟩

theorem Run.exclusive (hs : Exclusive s) (h : Run Entry.Tame s s') :
  Exclusive s'
  := by
  induction h with
  | refl => exact hs
  | step _ htakes htame ih => exact (htakes.exclusive ih htame).1

/-- When only one environment is runnable, and no environment is current or it is that one, it
is run. -/
theorem schedYield_only {α : Type} {e : Nat} (he : e < NENV) (hrun : s.status e = .ENV_RUNNABLE)
    (honly : ∀ e' < NENV, e' ≠ e → s.status e' ≠ .ENV_RUNNABLE) :
  (schedYield : Prog State α) s = envRun e s
  := by
  obtain ⟨i, hi, hcand⟩ := s.candidate_surj he
  cases hfind : (List.range NENV).find?
      (fun i => (s.envs (s.candidate i)).envStatus = .ENV_RUNNABLE) with
  | none =>
      rw [List.find?_range_eq_none] at hfind
      have hno := hfind i hi
      simp only [Bool.not_eq_true', decide_eq_false_iff_not] at hno
      rw [hcand] at hno
      exact (hno hrun).elim
  | some j =>
      have hj := hfind
      rw [List.find?_range_eq_some] at hj
      have hjrun := hj.1
      simp only [decide_eq_true_eq] at hjrun
      have hje : s.candidate j = e := by
        by_contra hne
        exact honly _ (s.candidate_lt j) hne hjrun
      rw [schedYield, get_bind, hfind]
      change (envRun (s.candidate j) : Prog State α) s = envRun e s
      rw [hje]

/-- Running an environment when none is current. -/
theorem envRun_none {e : Nat} (hcur : s.curenv = none) (hpgdir : (s.envs e).envPgdir = true) :
  (envRun e : Prog State Unit).Ends s (fun _ _ => False) (fun s' =>
    s'.cpus s.cpunum = { s.cpus s.cpunum with cpuEnv := some e } ∧ (∀ c, c ≠ s.cpunum → s'.cpus c = s.cpus c) ∧ s'.status e = .ENV_RUNNING
    ∧ (s'.envs e).envPgdir = true ∧ (∀ x, x ≠ e → s'.envs x = s.envs x) ∧ s'.ncpu = s.ncpu
    ∧ s'.cpunum = s.cpunum)
  := by
  have hswitch : s.switches e = true := by
    unfold State.switches
    rw [hcur]
  obtain ⟨s1, hs1⟩ : ∃ s1, s1 = (s.setCurenv (some e)).setEnv e { s.envs e with
      envStatus := .ENV_RUNNING
      envRuns := (s.envs e).envRuns + 1 } := ⟨_, rfl⟩
  have hself : s1.cpus s.cpunum = { s.cpus s.cpunum with cpuEnv := some e } := by
    rw [hs1]
    simp only [State.setEnv, State.setCurenv, State.setCpu, Function.update_self]
  have hpg : ¬ (s1.envs e).envPgdir = false := by
    rw [hs1, State.envs_setEnv_self]
    simp [hpgdir]
  have hpreempt : preempt s = .ok ((), s) := by
    rw [preempt, get_bind, hcur]
    rfl
  have hto : switchTo e s = .ok ((), s1) := by
    rw [switchTo, bind_of_eq hpreempt, modify_bind, ← hs1, get_bind, if_neg hpg]
    rfl
  have hover : switchOver e s = .ok ((), s1) := by
    rw [switchOver, get_bind, if_pos hswitch, hto]
  have hcur1 : s1.curenv = some e := by
    have hnum : s1.cpunum = s.cpunum := by
      rw [hs1]
      rfl
    rw [State.curenv, hnum, hself]
  have hcurenv : curenv s1 = .ok (e, s1) := by
    rw [curenv, get_bind, hcur1]
    rfl
  have hrun : (envRun e : Prog State Unit) s =
      .error (.leave (s1.setEnv e { s1.envs e with envCpunum := s1.cpunum })) := by
    rw [envRun, bind_of_eq hover, bind_of_eq hcurenv, modify_bind]
    rfl
  rw [ends_of_leave hrun]
  refine ⟨hself, ?_, ?_, ?_, ?_, ?_, ?_⟩
  · intro c hc
    change s1.cpus c = s.cpus c
    rw [hs1]
    simp only [State.setEnv, State.setCurenv, State.setCpu, Function.update_of_ne hc]
  · rw [State.status_setEnv_self, hs1, State.envs_setEnv_self]
  · rw [State.envs_setEnv_self]
    simpa using hpg
  · intro x hx
    rw [State.envs_setEnv_of_ne _ _ hx, hs1, State.envs_setEnv_of_ne _ _ hx]
    rfl
  · rw [hs1]
    rfl
  · rw [hs1]
    rfl

/-- Where the kernel lock may be linked. -/
def kernelLockAt : Word := 0xF0123000

/-- A word written to the kernel's memory where the kernel lock is. The words around its first
one are not of interest. -/
def pokeLock (va v : Word) (s : State) : Option State :=
  if va = kernelLockAt then
    some { s with kernelLock := { s.kernelLock with locked := v ≠ 0 } }
  else
    some s

/-- Nothing is decided against anybody. -/
def generous : Decisions :=
  { setupVm := true
    guestPages := 3
    loads := true
    entry := 0
    userMem := true
    stores := true
    poke := pokeLock
    lookup := none
    inserts := true
    pageCall := 0
    getc := 0 }

/-- Two processors, of which the first runs the only environment. -/
structure TwoCpus (s : State) : Prop where
  ncpu : s.ncpu = 2
  first : s.cpus 0 = { cpuStatus := .CPU_STARTED, cpuEnv := some 0 }
  second : s.cpus 1 = { cpuStatus := .CPU_STARTED, cpuEnv := none }
  pgdir : (s.envs 0).envPgdir = true
  others : ∀ e < NENV, e ≠ 0 → s.status e ≠ .ENV_RUNNABLE

/-- The first environment on the free list is created. -/
theorem envCreate_generous {e : Nat} (type : EnvType) (hlist : s.envFreeList = some e) :
  (envCreate generous type).Ends s (fun _ s' => s'.cpus = s.cpus ∧ s'.cpunum = s.cpunum
    ∧ s'.ncpu = s.ncpu ∧ s'.status e = .ENV_RUNNABLE ∧ (s'.envs e).envPgdir = true
    ∧ ∀ x, x ≠ e → s'.envs x = s.envs x) (fun _ => False)
  := by
  rw [envCreate, ends_bind, envAlloc, ends_bind, ends_get, hlist]
  change (if generous.setupVm = false then _ else _ : Prog State (Except Word Nat)).Ends s _ _
  rw [if_neg (by decide), ends_bind, ends_modify, ends_bind, ends_modify, ends_pure]
  change (loadIcode generous e >>= fun _ => modify _).Ends _ _ _
  rw [loadIcode, if_pos (by decide), ends_bind, ends_modify, ends_modify]
  refine ⟨rfl, rfl, rfl, ?_, ?_, ?_⟩
  · rw [State.status_setEnv_self, State.envs_setEnv_self, State.envs_setEnv_self]
  · rw [State.envs_setEnv_self, State.envs_setEnv_self, State.envs_setEnv_self]
  · intro x hx
    rw [State.envs_setEnv_of_ne _ _ hx, State.envs_setEnv_of_ne _ _ hx]
    exact State.envs_setEnv_of_ne s _ hx

/-- Two processors that are started, and the first runs the environment. -/
theorem twoCpus_booted :
  ∃ s, Booted generous s ∧ TwoCpus s ∧ s.status 0 = .ENV_RUNNING
  := by
  obtain ⟨s0, hs0⟩ : ∃ s0 : State, s0 = { ncpu := 2 } := ⟨_, rfl⟩
  have hends : (i386Init generous).Ends s0 (fun _ _ => False)
      (fun s => TwoCpus s ∧ s.status 0 = .ENV_RUNNING) := by
    rw [i386Init, ends_bind]
    apply (envInit_ok s0).mono
    · intro _ s1 h1
      rw [ends_bind, ends_modify, ends_bind]
      obtain ⟨s2, hs2⟩ : ∃ s2, s2 = { s1 with cpus := fun c =>
          if c < s1.ncpu then { s1.cpus c with cpuStatus := .CPU_STARTED } else s1.cpus c } :=
        ⟨_, rfl⟩
      rw [← hs2]
      have hncpu : s1.ncpu = 2 := by
        rw [h1.ncpu, hs0]
      have hcpus : ∀ c < 2, s2.cpus c = { cpuStatus := .CPU_STARTED, cpuEnv := none } := by
        intro c hc
        rw [hs2]
        simp only
        rw [hncpu, if_pos hc, h1.cpus, hs0]
      have hnum : s2.cpunum = 0 := by
        rw [hs2]
        change s1.cpunum = 0
        rw [h1.cpunum, hs0]
      have hlist : s2.envFreeList = some 0 := by
        rw [hs2]
        exact h1.list
      obtain ⟨_, s4, heq4, hcpus4, hnum4, hncpu4, hrun4, hpg4, hoth4⟩ :=
        (envCreate_generous .ENV_TYPE_USER hlist).returns
      rw [ends_of_eq heq4]
      have hfree : ∀ e < NENV, e ≠ 0 → s4.status e = .ENV_FREE := by
        intro e he hne
        rw [State.status, hoth4 e hne, hs2]
        exact h1.status e he
      have hyield : (schedYield : Prog State Unit) s4 = envRun 0 s4 := by
        apply schedYield_only (by decide) hrun4
        intro e he hne
        rw [hfree e he hne]
        simp
      have hcur4 : s4.curenv = none := by
        rw [State.curenv, hnum4, hnum, hcpus4, hcpus 0 (by decide)]
      have hrun := envRun_none hcur4 hpg4
      obtain ⟨_, _, _, h⟩ | ⟨s5, heq5, h⟩ := hrun.cases
      · exact h.elim
      · rw [← hyield] at heq5
        rw [ends_of_leave heq5]
        obtain ⟨hself, hothers, hrun5, hpg5, hkeep, hncpu5, -⟩ := h
        rw [hnum4, hnum] at hself hothers
        refine ⟨⟨?_, ?_, ?_, hpg5, ?_⟩, hrun5⟩
        · rw [hncpu5, hncpu4, hs2]
          exact hncpu
        · rw [hself, hcpus4, hcpus 0 (by decide)]
        · rw [hothers 1 (by decide), hcpus4, hcpus 1 (by decide)]
        · intro e he hne
          rw [State.status, hkeep e hne]
          change s4.status e ≠ .ENV_RUNNABLE
          rw [hfree e he hne]
          simp
    · exact fun _ h => h.elim
  obtain ⟨_, _, _, h⟩ | ⟨s, hleft, h⟩ := hends.cases
  · exact h.elim
  · refine ⟨s, ⟨s0, ?_, ?_, hleft⟩, h⟩
    · intro c
      rw [hs0]
    · rw [hs0]

/-- The first processor calls `sys_env_set_status(0, ENV_RUNNABLE)`. -/
def wakeSelf : Entry :=
  { cpu := 0
    cause := .user { tfTrapno := 48, tfCs := GD_UT ||| 3, tfRegs := { regEax := 8, regEcx := 2 } }
    decisions := generous }

/-- The second processor goes to look for an environment. -/
def startSecond : Entry :=
  { cpu := 1
    cause := .start
    decisions := generous }

/-- Going on with the current environment. -/
theorem envRun_same {e : Nat} (hcur : s.curenv = some e) :
  (envRun e : Prog State Unit) s =
    .error (.leave (s.setEnv e { s.envs e with envCpunum := s.cpunum }))
  := by
  have hswitch : ¬ s.switches e = true := by
    unfold State.switches
    rw [hcur]
    simp
  have hover : switchOver e s = .ok ((), s) := by
    rw [switchOver, get_bind, if_neg hswitch]
    rfl
  have hcurenv : curenv s = .ok (e, s) := by
    rw [curenv, get_bind, hcur]
    rfl
  rw [envRun, bind_of_eq hover, bind_of_eq hcurenv, modify_bind]
  rfl

/-- What changes when only the current environment does. -/
structure OnlyCur (s s' : State) : Prop where
  cpus : s'.cpus = s.cpus
  cpunum : s'.cpunum = s.cpunum
  ncpu : s'.ncpu = s.ncpu
  pgdir : (s'.envs 0).envPgdir = (s.envs 0).envPgdir
  others : ∀ e, e ≠ 0 → s'.envs e = s.envs e

theorem OnlyCur.setEnv (s : State) {env : Env} (h : env.envPgdir = (s.envs 0).envPgdir) :
  OnlyCur s (s.setEnv 0 env)
  := by
  refine ⟨rfl, rfl, rfl, ?_, fun e he => State.envs_setEnv_of_ne s env he⟩
  rw [State.envs_setEnv_self]
  exact h

theorem OnlyCur.refl (s : State) :
  OnlyCur s s
  := ⟨rfl, rfl, rfl, rfl, fun _ _ => rfl⟩

theorem OnlyCur.trans (h : OnlyCur s s') (h' : OnlyCur s' s'') :
  OnlyCur s s''
  := ⟨h'.cpus.trans h.cpus, h'.cpunum.trans h.cpunum, h'.ncpu.trans h.ncpu,
    h'.pgdir.trans h.pgdir, fun e he => (h'.others e he).trans (h.others e he)⟩

/-- The environment that makes itself runnable runs on. -/
theorem TwoCpus.wakeSelf (h : TwoCpus s) (hrun : s.status 0 = .ENV_RUNNING) :
  ∃ s', Smp.wakeSelf.Takes s s' ∧ TwoCpus s' ∧ s'.status 0 = .ENV_RUNNABLE
  := by
  obtain ⟨s1, hs1⟩ : ∃ s1, s1 = Smp.wakeSelf.started s := ⟨_, rfl⟩
  have hcpus1 : s1.cpus = s.cpus := by
    rw [hs1]
    change Function.update s.cpus 0 { s.cpus 0 with cpuStatus := .CPU_STARTED } = s.cpus
    rw [Function.update_eq_self_iff, h.first]
  have hcur : ∀ {t : State}, OnlyCur s1 t → t.curenv = some 0 := by
    intro t ht
    have hnum : s1.cpunum = 0 := by
      rw [hs1]
      rfl
    rw [State.curenv, ht.cpunum, hnum, ht.cpus, hcpus1, h.first]
  have hothers : ∀ {t : State}, OnlyCur s1 t → ∀ e < NENV, e ≠ 0 → t.status e ≠ .ENV_RUNNABLE := by
    intro t ht e he hne
    rw [State.status, ht.others e hne, hs1]
    exact h.others e he hne
  have hends : (trap generous { tfTrapno := 48, tfCs := GD_UT ||| 3
                                tfRegs := { regEax := 8, regEcx := 2 } }).Ends
      (Smp.wakeSelf.locked s) (fun _ _ => False)
      (fun s' => OnlyCur s1 s' ∧ s'.status 0 = .ENV_RUNNABLE) := by
    rw [trap, ends_bind, ends_modify]
    change Ends _ (Smp.wakeSelf.started s) _ _
    have hcur1 : s1.curenv = some 0 := hcur (.refl s1)
    have hnotdying : ¬ (s1.envs 0).envStatus = .ENV_DYING := by
      have hst : s1.status 0 = .ENV_RUNNING := by
        rw [hs1]
        exact hrun
      rw [State.status] at hst
      rw [hst]
      simp
    rw [← hs1, if_pos (by decide), ends_bind, ends_get]
    simp only [hcur1]
    rw [if_neg hnotdying, ends_bind, ends_modify, ends_bind]
    -- the registers are saved
    obtain ⟨s2, hs2⟩ : ∃ s2, s2 = s1.setEnv 0 { s1.envs 0 with
        envTf := { tfTrapno := 48, tfCs := GD_UT ||| 3, tfRegs := { regEax := 8, regEcx := 2 } } } :=
      ⟨_, rfl⟩
    have h2 : OnlyCur s1 s2 := by
      rw [hs2]
      exact .setEnv s1 rfl
    rw [← hs2]
    -- the status is set
    have hfind : envid2env 0 true s2 = .ok (some 0, s2) := by
      rw [envid2env, if_pos rfl, get_bind, hcur h2]
      rfl
    have hcall : syscall generous 8 0 2 0 0 s2 =
        .ok (0, s2.setEnv 0 { s2.envs 0 with envStatus := .ENV_RUNNABLE }) := by
      change sysEnvSetStatus 0 2 s2 = _
      have hst : statusOf 2 = some .ENV_RUNNABLE := rfl
      rw [sysEnvSetStatus, hst]
      simp only
      rw [bind_of_eq hfind]
      rfl
    change (syscall generous 8 0 2 0 0 >>= fun r => setEax (some 0) r).Ends s2 _ _
    rw [ends_bind, ends_of_eq hcall, setEax, ends_modify]
    obtain ⟨s3, hs3⟩ : ∃ s3, s3 = s2.setEnv 0 { s2.envs 0 with envStatus := .ENV_RUNNABLE } :=
      ⟨_, rfl⟩
    have h3 : OnlyCur s1 s3 := by
      rw [hs3]
      exact h2.trans (.setEnv s2 rfl)
    have hst3 : s3.status 0 = .ENV_RUNNABLE := by
      rw [hs3, State.status_setEnv_self]
    rw [← hs3]
    -- the scheduler goes on with the environment
    obtain ⟨s4, hs4⟩ : ∃ s4, s4 = s3.setEnv 0 { s3.envs 0 with
        envTf := { (s3.envs 0).envTf with tfRegs := { (s3.envs 0).envTf.tfRegs with regEax := 0 } } } :=
      ⟨_, rfl⟩
    have h4 : OnlyCur s1 s4 := by
      rw [hs4]
      exact h3.trans (.setEnv s3 rfl)
    have hst4 : s4.status 0 = .ENV_RUNNABLE := by
      rw [hs4, State.status_setEnv_self]
      exact hst3
    have hnotrunning : ¬ (s4.envs 0).envStatus = .ENV_RUNNING := by
      rw [State.status] at hst4
      rw [hst4]
      simp
    have hyield : (schedYield : Prog State Unit) s4 = envRun 0 s4 :=
      schedYield_only (by decide) hst4 (hothers h4)
    rw [envRun_same (hcur h4)] at hyield
    rw [← hs4, trapReturn, ends_bind, ends_get]
    simp only [hcur h4]
    rw [if_neg hnotrunning, ends_of_leave hyield]
    refine ⟨h4.trans (.setEnv s4 rfl), ?_⟩
    rw [State.status_setEnv_self]
    exact hst4
  obtain ⟨_, _, _, hfalse⟩ | ⟨s', hleft, honly, hrun'⟩ := hends.cases
  · exact hfalse.elim
  · refine ⟨s', ⟨⟨?_, ?_, ?_, ?_⟩, hleft⟩, ⟨?_, ?_, ?_, ?_, hothers honly⟩, hrun'⟩
    · rw [h.ncpu]
      decide
    · change (s.cpus 0).cpuStatus = .CPU_STARTED
      rw [h.first]
    · change (s.cpus 0).cpuEnv ≠ none
      rw [h.first]
      simp
    · decide
    · rw [honly.ncpu, hs1]
      exact h.ncpu
    · rw [honly.cpus, hcpus1, h.first]
    · rw [honly.cpus, hcpus1, h.second]
    · rw [honly.pgdir, hs1]
      exact h.pgdir

/-- The second processor takes a runnable environment. -/
theorem TwoCpus.startSecond (h : TwoCpus s) (hrun : s.status 0 = .ENV_RUNNABLE) :
  ∃ s', Smp.startSecond.Takes s s' ∧ s'.runs 0 = some 0 ∧ s'.runs 1 = some 0
  := by
  have hnone : (Smp.startSecond.locked s).curenv = none := by
    change (s.cpus 1).cpuEnv = none
    rw [h.second]
  have hyield : mpMain (Smp.startSecond.locked s) = envRun 0 (Smp.startSecond.locked s) :=
    schedYield_only (by decide) hrun h.others
  have hends := envRun_none hnone h.pgdir
  obtain ⟨_, _, _, hfalse⟩ | ⟨s', heq, hself, hothers, -⟩ := hends.cases
  · exact hfalse.elim
  · rw [← hyield] at heq
    refine ⟨s', ⟨⟨?_, ?_, ?_⟩, heq⟩, ?_, ?_⟩
    · rw [h.ncpu]
      decide
    · change (s.cpus 1).cpuStatus = .CPU_STARTED
      rw [h.second]
    · change (s.cpus 1).cpuEnv = none
      rw [h.second]
    · have hne : (0 : Nat) ≠ 1 := by decide
      rw [State.runs, hothers 0 hne]
      change (s.cpus 0).cpuEnv = some 0
      rw [h.first]
    · change (s'.cpus (Smp.startSecond.locked s).cpunum).cpuEnv = some 0
      rw [hself]

/-- The second processor is halted while the only environment is running. -/
theorem TwoCpus.halts (h : TwoCpus s) (hrun : s.status 0 = .ENV_RUNNING) :
  ∃ s', Smp.startSecond.Takes s s'
  := by
  obtain ⟨s1, hs1⟩ : ∃ s1, s1 = Smp.startSecond.locked s := ⟨_, rfl⟩
  have hnone : s1.curenv = none := by
    rw [hs1]
    change (s.cpus 1).cpuEnv = none
    rw [h.second]
  have hfind : (List.range NENV).find?
      (fun i => (s1.envs (s1.candidate i)).envStatus = .ENV_RUNNABLE) = none := by
    rw [List.find?_range_eq_none]
    intro i _
    simp only [Bool.not_eq_true', decide_eq_false_iff_not]
    have hstatus : ∀ e, s1.status e = s.status e := by
      intro e
      rw [hs1]
      rfl
    change ¬ s1.status (s1.candidate i) = .ENV_RUNNABLE
    rw [hstatus]
    by_cases h0 : s1.candidate i = 0
    · rw [h0, hrun]
      simp
    · exact h.others _ (s1.candidate_lt i) h0
  have hany : (List.range NENV).any (fun i => (s1.envs i).envStatus = .ENV_RUNNABLE
      ∨ (s1.envs i).envStatus = .ENV_RUNNING ∨ (s1.envs i).envStatus = .ENV_DYING) = true := by
    rw [List.any_eq_true]
    refine ⟨0, List.mem_range.mpr (by decide), ?_⟩
    simp only [decide_eq_true_eq]
    right
    left
    rw [hs1]
    exact hrun
  have hleft : mpMain s1 = .error (.leave (s1.setCpu { cpuStatus := .CPU_HALTED, cpuEnv := none })) := by
    rw [mpMain, schedYield, get_bind, hfind]
    simp only [hnone]
    rw [schedHalt, get_bind, if_pos hany, modify_bind]
    rfl
  rw [hs1] at hleft
  refine ⟨_, ⟨?_, ?_, ?_⟩, hleft⟩
  · rw [h.ncpu]
    decide
  · change (s.cpus 1).cpuStatus = .CPU_STARTED
    rw [h.second]
  · change (s.cpus 1).cpuEnv = none
    rw [h.second]

end Jos.Smp
