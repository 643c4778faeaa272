import Jos.Kern.Failing
import Jos.Root.Wf

/-!
# Choosing and destroying environments

The scheduler of `kern/sched.c` goes on with the current environment, switches to a runnable one,
or waits.  None of this panics in a well-formed kernel, unless there is nothing to wait for, and
apart from the status of environments it changes nothing.
-/

namespace Jos

namespace Root

open Bytes Prog

variable {avail held : Finset Nat} {own : Nat → Nat} {l fl : List Nat} {s s' s'' : Kernel}

/-! ### Switching -/

/-- The kernel after a switch to the environment `e`. -/
def switchTo (s : Kernel) (e : Nat) : Kernel :=
  { s.preempted.setEnv e { s.preempted.envs e with
      envStatus := .ENV_RUNNING
      envRuns := (s.preempted.envs e).envRuns + 1 } with curenv := some e }

/-- A switch changes the status of environments only, and how often they ran. Only the status of
the environment that is switched to and of the current one, if it is running, changes. -/
theorem switchTo_envs (s : Kernel) (e e' : Nat) :
  ∃ status runs, (switchTo s e).envs e' = { s.envs e' with
      envStatus := status
      envRuns := runs }
    ∧ (e' = e ∧ status = .ENV_RUNNING ∨ e' ≠ e ∧ status = (s.envs e').envStatus
      ∨ e' ≠ e ∧ (s.envs e').envStatus = .ENV_RUNNING ∧ status = .ENV_RUNNABLE)
  := by
  have hp := s.preempted_envs e'
  simp only [switchTo, Kernel.setEnv]
  by_cases he : e' = e
  · rw [he] at hp ⊢
    rw [Function.update_self]
    use .ENV_RUNNING, (s.envs e).envRuns + 1
    constructor
    · obtain hp | ⟨-, hp⟩ := hp
      · rw [hp]
      · rw [hp]
    · exact Or.inl ⟨rfl, rfl⟩
  · rw [Function.update_of_ne he]
    obtain hp | ⟨hrun, hp⟩ := hp
    · use (s.envs e').envStatus, (s.envs e').envRuns
      rw [hp]
      exact ⟨rfl, Or.inr (Or.inl ⟨he, rfl⟩)⟩
    · use .ENV_RUNNABLE, (s.envs e').envRuns
      rw [hp]
      exact ⟨rfl, Or.inr (Or.inr ⟨he, hrun, rfl⟩)⟩

/-- The same environments are live after a switch to a live one. -/
theorem switchTo_live {e : Nat} (hlive : s.Live e) (e' : Nat) :
  (switchTo s e).Live e' ↔ s.Live e'
  := by
  obtain ⟨status, runs, henv, hst⟩ := switchTo_envs s e e'
  rw [Kernel.Live, Kernel.Live, henv]
  obtain ⟨rfl, rfl⟩ | ⟨-, rfl⟩ | ⟨-, hrun, rfl⟩ := hst
  · simp [hlive.1, hlive.2]
  · rfl
  · simp [hrun]

/-- A switch changes the environments only, and which is the current one. -/
theorem switchTo_frame (s : Kernel) (e : Nat) :
  switchTo s e = { s with envs := (switchTo s e).envs, curenv := some e }
  := by
  rw [switchTo, Kernel.preempted_frame]
  rfl

/-- Page directories stay as they are when a live environment is switched to. -/
theorem switchTo_pgdir {e : Nat} (hlive : s.Live e) (e' : Nat) :
  (switchTo s e).pgdir e' = s.pgdir e'
  := by
  obtain ⟨status, runs, henv, hst⟩ := switchTo_envs s e e'
  rw [Kernel.pgdir, Kernel.pgdir, henv]
  obtain ⟨rfl, rfl⟩ | ⟨-, rfl⟩ | ⟨-, hrun, rfl⟩ := hst
  · simp [hlive.2]
  · rfl
  · simp [hrun]

/-- Switching to a live environment keeps the kernel well formed. -/
theorem Wf.switchTo (h : Wf avail held s) {e : Nat} (hlive : s.Live e) :
  Wf avail held (switchTo s e)
  := by
  have hpre : Wf avail held s.preempted :=
    Kernel.preempted_keeps (P := Wf avail held) (fun h => h.setEnv) h
  have h' : Wf avail held (s.preempted.setEnv e { s.preempted.envs e with
      envStatus := .ENV_RUNNING
      envRuns := (s.preempted.envs e).envRuns + 1 }) := by
    apply hpre.setEnv (Kernel.preempted_live hlive.2)
    · simp
    · rfl
  apply h'.setCurenv

/-! ### Choosing an environment -/

/-- The kernel goes on with the current environment, switches to one that is runnable, or waits
for an interrupt. -/
inductive Resumed (s : Kernel) : Kernel → Prop
  | stay {cur : Nat} (hcur : s.curenv = some cur) : Resumed s s
  | run {e : Nat} (hlt : e < NENV) (hst : (s.envs e).envStatus = .ENV_RUNNABLE) :
    Resumed s (switchTo s e)
  | halt : Resumed s { s with curenv := none }

theorem live_of_runnable {e : Nat} (hlt : e < NENV) (hst : (s.envs e).envStatus = .ENV_RUNNABLE) :
  s.Live e
  := by
  use hlt
  rw [hst]
  simp

/-- Going on with an environment keeps the kernel well formed. -/
theorem Wf.resumed (h : Wf avail held s) (hr : Resumed s s') :
  Wf avail held s'
  := by
  cases hr with
  | stay => apply h
  | run hlt hst => apply h.switchTo (live_of_runnable hlt hst)
  | halt => apply h.setCurenv

/-- A switch ends in the state switched to, if the environment has a directory. -/
theorem envRun_run {α : Type} {e : Nat} (hcur : isCurrent s e = false) :
  (envRun e : Prog Kernel α) s = (if (s.envs e).envPgdir = none then
      Prog.panic "PADDR called with invalid kva 00000000"
    else
      Prog.leave : Prog Kernel α) (switchTo s e)
  := by
  have hpre : (envRun e : Prog Kernel α) s = (do
      modify (fun s => { s.setEnv e { s.envs e with
        envStatus := .ENV_RUNNING
        envRuns := (s.envs e).envRuns + 1 } with curenv := some e })
      let s ← get
      if (s.envs e).envPgdir = none then
        Prog.panic "PADDR called with invalid kva 00000000"
      else
        Prog.leave : Prog Kernel α) s.preempted := by
    rw [envRun, Prog.get_bind, if_neg (by rw [hcur]; simp), Kernel.preempted]
    cases s.curenv with
    | none => rfl
    | some cur =>
        simp only
        split
        · rfl
        · rfl
  have hpg : ((switchTo s e).envs e).envPgdir = (s.envs e).envPgdir := by
    obtain ⟨_, _, henv, -⟩ := switchTo_envs s e e
    rw [henv]
  rw [hpre, Prog.modify_bind, Prog.get_bind, ← hpg]
  rfl

/-- Choosing the next environment does not return. -/
theorem schedYield_resumed {α : Type} :
  (schedYield : Prog Kernel α).MayEnd s (fun _ _ => False) (Resumed s)
  := by
  have hmod : ∀ i, i % NENV < NENV := fun i => Nat.mod_lt i (by decide)
  have hrun : ∀ e, (e < NENV ∧ (s.envs e).envStatus = .ENV_RUNNABLE ∨ s.curenv = some e) →
      (envRun e : Prog Kernel α).MayEnd s (fun _ _ => False) (Resumed s) := by
    intro e he
    cases hcur : isCurrent s e with
    | true =>
        have hstay : ∃ cur, s.curenv = some cur := by
          rw [isCurrent] at hcur
          cases hc : s.curenv with
          | none =>
              rw [hc] at hcur
              cases hcur
          | some cur => use cur
        obtain ⟨cur, hc⟩ := hstay
        rw [envRun, mayEnd_bind, mayEnd_get, if_pos hcur, mayEnd_leave]
        exact .stay hc
    | false =>
        obtain ⟨hlt, hst⟩ | hc := he
        · by_cases hpg : (s.envs e).envPgdir = none
          · have hpanic : (envRun e : Prog Kernel α) s
                = .error (.panic "PADDR called with invalid kva 00000000") := by
              rw [envRun_run hcur, if_pos hpg]
              rfl
            exact mayEnd_of_panic hpanic
          · have hleave : (envRun e : Prog Kernel α) s = .error (.leave (Root.switchTo s e)) := by
              rw [envRun_run hcur, if_neg hpg]
              rfl
            rw [mayEnd_of_leave hleave]
            exact .run hlt hst
        · rw [isCurrent, hc] at hcur
          simp at hcur
  have hhalt : (schedHalt : Prog Kernel α).MayEnd s (fun _ _ => False) (Resumed s) := by
    rw [schedHalt, mayEnd_bind, mayEnd_get, mayEnd_ite]
    constructor
    · exact fun _ => mayEnd_panic _
    · intro _
      rw [mayEnd_bind, mayEnd_set, mayEnd_leave]
      exact .halt
  rw [schedYield, mayEnd_bind, mayEnd_get]
  generalize List.range NENV = ids
  simp only
  generalize (curEnvx s + 1) % NENV = first
  cases hfind : ids.find? (fun i => decide
      ((s.envs ((first + i) % NENV)).envStatus = .ENV_RUNNABLE)) with
  | some i =>
      have hsel := List.find?_some hfind
      simp only [decide_eq_true_eq] at hsel
      exact hrun _ (Or.inl ⟨hmod _, hsel⟩)
  | none =>
      simp only
      cases hc : s.curenv with
      | none => exact hhalt
      | some cur =>
          simp only
          rw [mayEnd_ite]
          constructor
          · exact fun _ => hrun cur (Or.inr hc)
          · exact fun _ => hhalt

/-! ### Destroying environments -/

/-- From `s` to `s'` the environment `e` was marked to be freed when it traps, or freed. -/
inductive Destroyed (held : Finset Nat) (e : Fin NENV) (s : Kernel) : Kernel → Prop
  | dying (hrunning : (s.envs e).envStatus = .ENV_RUNNING) (hother : s.curenv ≠ some e.val) :
    Destroyed held e s (s.setEnv e { s.envs e with envStatus := .ENV_DYING })
  | freed {s' : Kernel} (hfreed : Freed held e s s') (hother : s.curenv ≠ some e.val) :
    Destroyed held e s s'

/-- From `s` to `s''` the current environment `e` was freed and another one chosen. -/
def DestroyedSelf (held : Finset Nat) (e : Fin NENV) (s s'' : Kernel) : Prop :=
  ∃ s', Freed held e s s' ∧ s.curenv = some e.val ∧ Resumed { s' with curenv := none } s''

/-- Destroying a live environment keeps the kernel well formed. -/
theorem envDestroy_ends (h : Wf avail held s) {e : Fin NENV} (hlive : s.Live e)
    (hfits : Fits avail s) :
  (envDestroy e).MayEnd s (fun _ s' => Destroyed held e s s' ∧ Wf avail held s')
    (fun s' => DestroyedSelf held e s s' ∧ Wf avail held s')
  := by
  rw [envDestroy, mayEnd_bind, mayEnd_get, mayEnd_ite]
  constructor
  · rintro ⟨hst, hcur⟩
    rw [mayEnd_modify]
    use .dying hst hcur
    apply h.setEnv hlive.2
    · simp
    · rfl
  · intro _
    obtain ⟨s1, heq, hfreed, hwf⟩ := envFree_ok h hlive hfits
    have hcur1 : s1.curenv = s.curenv := by rw [hfreed.quiet]
    rw [mayEnd_of_bind_eq heq, mayEnd_bind, mayEnd_get, mayEnd_ite, hcur1]
    constructor
    · intro hcur
      have hwf' : Wf avail held { s1 with curenv := none } := hwf.setCurenv none
      rw [mayEnd_bind, mayEnd_modify]
      apply schedYield_resumed.mono
      · exact fun _ _ h => h.elim
      · intro s2 hres
        exact ⟨⟨s1, hfreed, hcur, hres⟩, hwf'.resumed hres⟩
    · intro hcur
      rw [mayEnd_pure]
      exact ⟨.freed hfreed hcur, hwf⟩

end Root

end Jos
