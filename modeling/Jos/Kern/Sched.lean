import Jos.Kern.Wf
import Jos.Lib.Frame

/-!
# Switching between environments

Running an environment, choosing the next one, and destroying one, in a well-formed
kernel.  None of these panics, and apart from the statistics of the environments they
change nothing but what they are for.
-/

namespace Jos

open Bytes

variable {avail held : Finset Nat} {own : Nat → Nat} {l fl : List Nat} {s s' s'' : Kernel}

namespace Kernel

/-- The kernel after the current environment is marked as runnable again. -/
def preempted (s : Kernel) : Kernel :=
  match s.curenv with
  | some cur =>
      if (s.envs cur).envStatus = .ENV_RUNNING then
        s.setEnv cur { s.envs cur with envStatus := .ENV_RUNNABLE }
      else
        s
  | none => s

/-- The kernel after a switch to the environment `e`. -/
def running (s : Kernel) (e : Nat) : Kernel :=
  { s.preempted.setEnv e { s.preempted.envs e with
      envCpunum := 0
      envStatus := .ENV_RUNNING
      envRuns := (s.preempted.envs e).envRuns + 1 } with curenv := some e }

/-- An environment is only marked as runnable when another one is switched to. -/
theorem preempted_envs (s : Kernel) (e : Nat) :
  s.preempted.envs e = s.envs e ∨
    ((s.envs e).envStatus = .ENV_RUNNING
      ∧ s.preempted.envs e = { s.envs e with envStatus := .ENV_RUNNABLE })
  := by
  unfold preempted
  cases s.curenv with
  | none => left; rfl
  | some cur =>
      by_cases hst : (s.envs cur).envStatus = .ENV_RUNNING
      · simp only [hst, if_true, setEnv]
        by_cases he : e = cur
        · right
          rw [he, Function.update_self]
          use hst
        · left
          rw [Function.update_of_ne he]
      · left
        simp only [hst, if_false]

/-- Environments keep their saved registers, types, identifiers and directories when
another one is switched to. -/
theorem running_envs (s : Kernel) (e e' : Nat) :
  ∃ status cpunum runs, (s.running e).envs e' = { s.envs e' with
      envStatus := status
      envCpunum := cpunum
      envRuns := runs }
    ∧ (status = .ENV_FREE → (s.envs e').envStatus = .ENV_FREE)
    ∧ (e' = e → status = .ENV_RUNNING)
  := by
  have hp := s.preempted_envs e'
  simp only [running, setEnv]
  by_cases he : e' = e
  · rw [he] at hp ⊢
    rw [Function.update_self]
    obtain hp | ⟨-, hp⟩ := hp
    · use .ENV_RUNNING, 0, (s.envs e).envRuns + 1
      rw [hp]
      simp
    · use .ENV_RUNNING, 0, (s.envs e).envRuns + 1
      rw [hp]
      simp
  · rw [Function.update_of_ne he]
    obtain hp | ⟨-, hp⟩ := hp
    · use (s.envs e').envStatus, (s.envs e').envCpunum, (s.envs e').envRuns
      rw [hp]
      simp [he]
    · use .ENV_RUNNABLE, (s.envs e').envCpunum, (s.envs e').envRuns
      rw [hp]
      simp [he]

theorem preempted_frame (s : Kernel) :
  s.preempted = { s with envs := s.preempted.envs }
  := by
  unfold preempted
  split
  · split
    · rfl
    · rfl
  · rfl

theorem preempted_live {e : Nat} (hlive : (s.envs e).envStatus ≠ .ENV_FREE) :
  (s.preempted.envs e).envStatus ≠ .ENV_FREE
  := by
  obtain heq | ⟨-, heq⟩ := s.preempted_envs e
  · rw [heq]
    exact hlive
  · rw [heq]
    simp

section Keeps

variable {P : Kernel → Prop}
  (hset : ∀ {s : Kernel}, P s → ∀ {e : Nat} {env : Env}, (s.envs e).envStatus ≠ .ENV_FREE →
    env.envStatus ≠ .ENV_FREE → env.envPgdir = (s.envs e).envPgdir → P (s.setEnv e env))
include hset

/-- What changes of live environments keep is kept when the current one is marked as runnable. -/
theorem preempted_keeps (h : P s) :
  P s.preempted
  := by
  unfold preempted
  cases s.curenv with
  | none => exact h
  | some cur =>
      by_cases hst : (s.envs cur).envStatus = .ENV_RUNNING
      · simp only [hst, if_true]
        apply hset h
        · rw [hst]
          simp
        · simp
        · rfl
      · simp only [hst, if_false]
        exact h

/-- It is kept when a live environment is switched to. -/
theorem running_keeps (hcur : ∀ {s : Kernel} (c : Option Nat), P s → P { s with curenv := c })
    (h : P s) {e : Nat} (hlive : (s.envs e).envStatus ≠ .ENV_FREE) :
  P (s.running e)
  := by
  apply hcur
  apply hset (preempted_keeps hset h) (preempted_live hlive)
  · simp
  · rfl

end Keeps

/-- A free environment that is not switched to stays as it is. -/
theorem running_envs_of_free {e e' : Nat} (h : (s.envs e').envStatus = .ENV_FREE) (he : e' ≠ e) :
  (s.running e).envs e' = s.envs e'
  := by
  have hp : s.preempted.envs e' = s.envs e' := by
    obtain hp | ⟨hrun, -⟩ := s.preempted_envs e'
    · exact hp
    · rw [h] at hrun
      cases hrun
  simp only [running, setEnv]
  rw [Function.update_of_ne he, hp]

/-- Only the environments change when another one is switched to. -/
theorem running_quiet (s : Kernel) (e : Nat) :
  s.running e = { s with
    envs := (s.running e).envs
    curenv := some e }
  := by
  rw [running, preempted_frame]
  rfl

/-- Memory stays as it is when another environment is switched to. -/
theorem running_mem (s : Kernel) (e : Nat) :
  (s.running e).mem = s.mem
  := by rw [running_quiet]

/-- The page allocator stays as it is when another environment is switched to. -/
theorem running_pages (s : Kernel) (e : Nat) :
  (s.running e).pages = s.pages ∧ (s.running e).pageFreeList = s.pageFreeList
  := by
  rw [running_quiet]
  exact ⟨rfl, rfl⟩

/-- Page directories stay as they are when a live environment is switched to. -/
theorem running_pgdir {e : Nat} (hlive : s.Live e) (e' : Nat) :
  (s.running e).pgdir e' = s.pgdir e'
  := by
  obtain ⟨st, cpu, runs, henv, hfree, hst⟩ := s.running_envs e e'
  rw [pgdir, pgdir]
  by_cases hf : (s.envs e').envStatus = .ENV_FREE
  · have hne : e' ≠ e := by
      rintro rfl
      exact hlive.2 hf
    rw [s.running_envs_of_free hf hne]
  · have hf' : ((s.running e).envs e').envStatus ≠ .ENV_FREE := by
      rw [henv]
      exact fun h => hf (hfree h)
    rw [if_neg hf, if_neg hf', henv]

theorem running_ptes {e : Nat} (hlive : s.Live e) :
  (s.running e).ptes = s.ptes
  := by
  funext a
  simp only [ptes, pte, pde, running_pgdir hlive, entry, running_mem]

end Kernel

/-- A switch ends in the state switched to, if the environment has a directory. -/
theorem envRun_run {α : Type} (e : Nat) :
  (envRun e : Prog Kernel α) s = (if (s.envs e).envPgdir = none then
      Prog.panic "PADDR called with invalid kva 00000000"
    else
      Prog.leave : Prog Kernel α) (s.running e)
  := by
  have hpre : (envRun e : Prog Kernel α) s = (do
      modify (fun s => { s.setEnv e { s.envs e with
        envCpunum := 0
        envStatus := .ENV_RUNNING
        envRuns := (s.envs e).envRuns + 1 } with curenv := some e })
      let s ← get
      if (s.envs e).envPgdir = none then
        Prog.panic "PADDR called with invalid kva 00000000"
      else
        Prog.leave : Prog Kernel α) s.preempted := by
    rw [envRun, Prog.get_bind, Kernel.preempted]
    cases s.curenv with
    | none => rfl
    | some cur =>
        simp only
        split
        · rfl
        · rfl
  have hpg : ((s.running e).envs e).envPgdir = (s.envs e).envPgdir := by
    obtain ⟨_, _, _, henv, -⟩ := s.running_envs e e
    rw [henv]
  rw [hpre, Prog.modify_bind, Prog.get_bind, ← hpg]
  rfl

/-- Switching to an environment with a directory leaves the kernel. -/
theorem envRun_eq {α : Type} {e : Nat} (hpg : (s.envs e).envPgdir ≠ none) :
  (envRun e : Prog Kernel α) s = .error (.leave (s.running e))
  := by
  rw [envRun_run, if_neg hpg]
  rfl

/-- Switching to a live environment keeps the kernel well formed. -/
theorem Wf.running (h : Wf avail held own s) {e : Nat} (hlive : s.Live e) :
  Wf avail held own (s.running e)
  := by
  apply Kernel.running_keeps (P := Wf avail held own) (fun h => h.setEnv) _ h hlive.2
  intro s c h
  apply h.congr (by rfl) (by rfl) (by rfl) (by rfl) (by rfl) (by rfl) (by rfl)

/-- The free pages stay the same when a live environment is switched to. -/
theorem MemInv.running (hl : MemInv avail held own l s) (h : Wf avail held own s) {e : Nat}
    (hlive : s.Live e) :
  MemInv avail held own l (s.running e)
  := by
  obtain ⟨l', hl'⟩ := (h.running hlive).mem
  have hchain := hl'.chain
  rw [(s.running_pages e).1, (s.running_pages e).2] at hchain
  rw [← hchain.unique hl.chain]
  exact hl'

/-- The kernel after a switch away from the current environment: to another one, or to
none if none can run. -/
def Switched (s s' : Kernel) : Prop :=
  (∃ e, s.Live e ∧ s' = s.running e) ∨ s' = { s with curenv := none }

/-- Switching to another environment keeps the kernel well formed. -/
theorem Wf.switched (h : Wf avail held own s) (hs : Switched s s') :
  Wf avail held own s'
  := by
  obtain ⟨e, hlive, rfl⟩ | rfl := hs
  · apply h.running hlive
  · apply h.congr (by rfl) (by rfl) (by rfl) (by rfl) (by rfl) (by rfl) (by rfl)

/-- Whether an environment is worth waiting for: it may run, it runs, or it is to be freed when it
traps. -/
def Env.Alive (env : Env) : Prop :=
  env.envStatus = .ENV_RUNNABLE ∨ env.envStatus = .ENV_RUNNING ∨ env.envStatus = .ENV_DYING

/-- Whether there is an environment to wait for. -/
def Kernel.SomeAlive (s : Kernel) : Prop :=
  ∃ e < NENV, (s.envs e).Alive

/-- Whether there is an environment to wait for besides `e`. -/
def Kernel.OtherAlive (s : Kernel) (e : Nat) : Prop :=
  ∃ e' < NENV, e' ≠ e ∧ (s.envs e').Alive

/-- An idle processor waits if there is an environment to wait for. -/
theorem schedHalt_run {α : Type} :
  (s.SomeAlive ∧ (schedHalt : Prog Kernel α) s = .error (.leave { s with curenv := none })) ∨
    (¬ s.SomeAlive ∧ (schedHalt : Prog Kernel α) s = noRunnable s)
  := by
  have hany : (List.range NENV).any (fun i => decide ((s.envs i).envStatus = .ENV_RUNNABLE
      ∨ (s.envs i).envStatus = .ENV_RUNNING ∨ (s.envs i).envStatus = .ENV_DYING)) = true
      ↔ s.SomeAlive := by
    simp [Kernel.SomeAlive, Env.Alive]
  rw [schedHalt, Prog.get_bind]
  by_cases halive : s.SomeAlive
  · left
    rw [if_pos (hany.mpr halive)]
    exact ⟨halive, rfl⟩
  · right
    rw [if_neg (fun h => halive (hany.mp h))]
    exact ⟨halive, rfl⟩

/-- Choosing the next environment runs a live one, or none. If there is none to wait for, the
kernel stays in its monitor. -/
theorem schedYield_run {α : Type} :
  (s.SomeAlive ∧ ((∃ e, s.Live e ∧ (schedYield : Prog Kernel α) s = (envRun e : Prog Kernel α) s) ∨
      (schedYield : Prog Kernel α) s = .error (.leave { s with curenv := none }))) ∨
    (¬ s.SomeAlive ∧ (schedYield : Prog Kernel α) s = noRunnable s)
  := by
  have hmod : ∀ i, i % NENV < NENV := fun i => Nat.mod_lt i (by decide)
  rw [schedYield, Prog.get_bind]
  generalize List.range NENV = ids
  simp only
  generalize (curEnvx s + 1) % NENV = first
  cases hfind : ids.find? (fun i => decide ((s.envs ((first + i) % NENV)).envType ≠ .ENV_TYPE_IDLE
      ∧ (s.envs ((first + i) % NENV)).envStatus = .ENV_RUNNABLE)) with
  | some i =>
      have hsel := List.find?_some hfind
      simp only [decide_eq_true_eq] at hsel
      left
      refine ⟨⟨_, hmod _, Or.inl hsel.2⟩, Or.inl ⟨(first + i) % NENV, ⟨hmod _, ?_⟩, rfl⟩⟩
      rw [hsel.2]
      simp
  | none =>
  simp only
  cases hfind' : ids.find? (fun i => decide ((s.envs ((first + i) % NENV)).envType ≠ .ENV_TYPE_IDLE
      ∧ (s.envs ((first + i) % NENV)).envStatus = .ENV_RUNNING
      ∧ (s.envs ((first + i) % NENV)).envCpunum = 0)) with
  | some i =>
      have hsel := List.find?_some hfind'
      simp only [decide_eq_true_eq] at hsel
      left
      refine ⟨⟨_, hmod _, Or.inr (Or.inl hsel.2.1)⟩,
        Or.inl ⟨(first + i) % NENV, ⟨hmod _, ?_⟩, rfl⟩⟩
      rw [hsel.2.1]
      simp
  | none =>
      simp only
      split
      case isTrue h0 =>
        left
        refine ⟨⟨0, by decide, h0.imp_right Or.inl⟩, Or.inl ⟨0, ⟨by decide, ?_⟩, rfl⟩⟩
        obtain h0 | h0 := h0
        · rw [h0]
          simp
        · rw [h0]
          simp
      case isFalse =>
        obtain ⟨halive, heq⟩ | ⟨hnone, heq⟩ := schedHalt_run (s := s) (α := α)
        · exact Or.inl ⟨halive, Or.inr heq⟩
        · exact Or.inr ⟨hnone, heq⟩

/-- Choosing the next environment leaves the kernel if there is one to wait for. -/
theorem schedYield_ok {α : Type} (hi : EnvInv fl s) (halive : s.SomeAlive) :
  ∃ s', (schedYield : Prog Kernel α) s = .error (.leave s') ∧ Switched s s'
  := by
  obtain ⟨-, ⟨e, hlive, heq⟩ | heq⟩ | ⟨hnone, -⟩ := schedYield_run (s := s) (α := α)
  · use s.running e
    rw [heq, envRun_eq (hi.pgdir e hlive)]
    exact ⟨rfl, Or.inl ⟨e, hlive, rfl⟩⟩
  · use { s with curenv := none }
    exact ⟨heq, Or.inr rfl⟩
  · exact (hnone halive).elim

/-- Without one it stays in the monitor. -/
theorem schedYield_stuck {α : Type} (hnone : ¬ s.SomeAlive) :
  (schedYield : Prog Kernel α) s = noRunnable s
  := by
  obtain ⟨halive, -⟩ | ⟨-, heq⟩ := schedYield_run (s := s) (α := α)
  · exact (hnone halive).elim
  · exact heq

/-- Wherever the kernel is left, another environment was chosen, or none. -/
theorem schedYield_switched {α : Type} (hi : EnvInv fl s) :
  (schedYield : Prog Kernel α).MayEnd s (fun _ _ => False) (Switched s)
  := by
  by_cases halive : s.SomeAlive
  · obtain ⟨s', heq, hsw⟩ := schedYield_ok (α := α) hi halive
    rw [Prog.mayEnd_of_leave heq]
    exact hsw
  · exact Prog.mayEnd_of_panic (schedYield_stuck halive)

/-! ### Destroying environments -/

/-- From `s` to `s'` the environment `e` was marked to be freed when it traps, or freed. -/
inductive Destroyed (held : Finset Nat) (e : Fin NENV) (s : Kernel) : Kernel → Prop
  | dying (hrunning : (s.envs e).envStatus = .ENV_RUNNING) (hother : s.curenv ≠ some e.val) :
    Destroyed held e s (s.setEnv e { s.envs e with envStatus := .ENV_DYING })
  | freed {s' : Kernel} (hfreed : Freed held e s s') (hother : s.curenv ≠ some e.val) :
    Destroyed held e s s'

/-- From `s` to `s''` the current environment `e` was freed and another one chosen. -/
def DestroyedSelf (held : Finset Nat) (e : Fin NENV) (s s'' : Kernel) : Prop :=
  ∃ s', Freed held e s s' ∧ s.curenv = some e.val ∧ Switched { s' with curenv := none } s''

theorem Wf.freed (h : Wf avail held own s) {e : Fin NENV} (hlive : s.Live e)
    (hfits : s.Fits avail own) :
  ∃ s', envFree e s = .ok ((), s') ∧ Freed held e s s' ∧ Wf avail held own s'
  := by
  obtain ⟨l, hl⟩ := h.mem
  obtain ⟨fl, hfl⟩ := h.env
  obtain ⟨s', l', heq, hfreed, hmem, henv⟩ := envFree_ok hl hfl hlive hfits
  use s', heq, hfreed
  constructor
  case mem => use l'
  case env => use e.val :: fl
  case dirs => apply h.dirs.freed hfreed

/-- Once `e` is freed, there are the other environments to wait for. -/
theorem Freed.someAlive_iff {e : Fin NENV} (h : Freed held e s s') :
  s'.SomeAlive ↔ s.OtherAlive e
  := by
  have hother : ∀ e', e' ≠ e.val → s'.envs e' = s.envs e' := by
    intro e' hne
    rw [h.envs, Function.update_of_ne hne]
  have hself : ¬ (s'.envs e).Alive := by
    rw [h.envs, Function.update_self]
    simp [Env.Alive]
  constructor
  · rintro ⟨e', hlt, halive⟩
    have hne : e' ≠ e.val := by
      rintro rfl
      exact hself halive
    rw [hother e' hne] at halive
    exact ⟨e', hlt, hne, halive⟩
  · rintro ⟨e', hlt, hne, halive⟩
    rw [← hother e' hne] at halive
    exact ⟨e', hlt, halive⟩

/-- Destroying a live environment does not panic and keeps the kernel well formed, if there is
another one to wait for when it is the current one. -/
theorem envDestroy_ok (h : Wf avail held own s) {e : Fin NENV} (hlive : s.Live e)
    (hfits : s.Fits avail own) (halive : s.curenv = some e.val → s.OtherAlive e) :
  (envDestroy e).Ends s (fun _ s' => Destroyed held e s s' ∧ Wf avail held own s')
    (fun s' => DestroyedSelf held e s s' ∧ Wf avail held own s')
  := by
  rw [envDestroy, Prog.ends_bind, Prog.ends_get, Prog.ends_ite]
  constructor
  · rintro ⟨hst, hcur⟩
    rw [Prog.ends_modify]
    use .dying hst hcur
    apply h.setEnv hlive.2
    · simp
    · rfl
  · intro hself
    obtain ⟨s1, heq, hfreed, hwf⟩ := h.freed hlive hfits
    have hcur1 : s1.curenv = s.curenv := by rw [hfreed.quiet]
    rw [Prog.ends_bind, Prog.ends_of_eq heq, Prog.ends_bind, Prog.ends_get, Prog.ends_ite, hcur1]
    constructor
    · intro hcur
      have hwf' : Wf avail held own { s1 with curenv := none } :=
        hwf.congr (by rfl) (by rfl) (by rfl) (by rfl) (by rfl) (by rfl) (by rfl)
      obtain ⟨fl, hfl⟩ := hwf'.env
      have halive1 : Kernel.SomeAlive { s1 with curenv := none } :=
        hfreed.someAlive_iff.mpr (halive hcur)
      obtain ⟨s2, heq2, hsw⟩ := schedYield_ok (α := Unit) hfl halive1
      rw [Prog.ends_bind, Prog.ends_modify]
      have hends : (schedYield : Prog Kernel Unit).Ends { s1 with curenv := none }
          (fun _ s' => Destroyed held e s s' ∧ Wf avail held own s')
          (fun s' => DestroyedSelf held e s s' ∧ Wf avail held own s') := by
        apply (Prog.ends_of_leave heq2).mpr
        constructor
        · use s1, hfreed, hcur
        · apply hwf'.switched hsw
      apply hends
    · intro hcur
      rw [Prog.ends_pure]
      use .freed hfreed hcur

/-- Destroying the current environment when there is no other one to wait for frees it, and the
kernel stays in its monitor. -/
theorem envDestroy_stuck (h : Wf avail held own s) {e : Fin NENV} (hlive : s.Live e)
    (hfits : s.Fits avail own) (hcur : s.curenv = some e.val) (hnone : ¬ s.OtherAlive e) :
  ∃ s', Freed held e s s' ∧ envDestroy e s = noRunnable s
  := by
  obtain ⟨s1, heq, hfreed, -⟩ := h.freed hlive hfits
  have hcur1 : s1.curenv = some e.val := by rw [hfreed.quiet, hcur]
  have hnone1 : ¬ Kernel.SomeAlive { s1 with curenv := none } :=
    fun halive => hnone (hfreed.someAlive_iff.mp halive)
  use s1, hfreed
  rw [envDestroy, Prog.get_bind, if_neg (fun hmark => hmark.2 hcur), Prog.bind_of_eq heq,
    Prog.get_bind, if_pos hcur1, Prog.modify_bind]
  exact schedYield_stuck hnone1

/-- Wherever it ends, destroying a live environment keeps the kernel well formed. -/
theorem envDestroy_wf (h : Wf avail held own s) {e : Fin NENV} (hlive : s.Live e)
    (hfits : s.Fits avail own) :
  (envDestroy e).MayEnd s (fun _ s' => Wf avail held own s') (fun s' => Wf avail held own s')
  := by
  by_cases halive : s.curenv = some e.val → s.OtherAlive e
  · exact (envDestroy_ok h hlive hfits halive).mayEnd.mono (fun _ _ h' => h'.2) (fun _ h' => h'.2)
  · rw [Classical.not_imp] at halive
    obtain ⟨s1, -, heq⟩ := envDestroy_stuck h hlive hfits halive.1 halive.2
    exact Prog.mayEnd_of_panic heq

end Jos
