import Jos.Kern.MemOnly
import Jos.Kern.Sched

/-!
# The privileges of environments

The selectors and flags in the saved registers decide with which privileges an
environment runs.  This module follows them through every trap: which environments keep
theirs, which are given new ones, and by whom.  In a run in which environments only ask
for registers that a user may have, every environment stays at privilege level 3 with
interrupts enabled, and only the file server and its descendants may use I/O ports.
-/

namespace Jos

open Bytes Prog

variable {s s' s'' : Kernel}

/-! ### What may happen to privileges -/

/-- The part of the saved registers that decides about privileges. -/
structure Privilege where
  cs : BitVec 16
  ds : BitVec 16
  es : BitVec 16
  ss : BitVec 16
  eflags : Word

/-- The privileges saved registers give. -/
def Trapframe.privilege (tf : Trapframe) : Privilege :=
  { cs := tf.tfCs, ds := tf.tfDs, es := tf.tfEs, ss := tf.tfSs, eflags := tf.tfEflags }

/-- No environment is created or given other privileges. -/
def SamePrivileges (s s' : Kernel) : Prop :=
  ∀ e, (s'.envs e).envStatus ≠ .ENV_FREE → (s.envs e).envStatus ≠ .ENV_FREE
    ∧ (s'.envs e).envId = (s.envs e).envId
    ∧ (s'.envs e).envType = (s.envs e).envType
    ∧ (s'.envs e).envTf.privilege = (s.envs e).envTf.privilege

/-- The current environment of the kernel, if there is one, is live. -/
def CurLive (s : Kernel) : Prop :=
  ∀ cur, s.curenv = some cur → s.Live cur

/-- Nor is another environment switched to, or the current one freed. -/
structure Steady (s s' : Kernel) : Prop where
  same : SamePrivileges s s'
  curenv : s'.curenv = s.curenv
  live : CurLive s → CurLive s'

/-- What happens to privileges until the kernel is left. -/
structure Left (s s' : Kernel) : Prop where
  same : SamePrivileges s s'
  live : CurLive s'

theorem SamePrivileges.refl (s : Kernel) :
  SamePrivileges s s
  := fun _ h => ⟨h, rfl, rfl, rfl⟩

theorem SamePrivileges.trans (h : SamePrivileges s s') (h' : SamePrivileges s' s'') :
  SamePrivileges s s''
  := by
  intro e he
  obtain ⟨he', hid', htype', hpriv'⟩ := h' e he
  obtain ⟨hlive, hid, htype, hpriv⟩ := h e he'
  exact ⟨hlive, hid'.trans hid, htype'.trans htype, hpriv'.trans hpriv⟩

theorem SamePrivileges.of_envs (h : s'.envs = s.envs) :
  SamePrivileges s s'
  := by
  intro e he
  rw [h] at he ⊢
  exact ⟨he, rfl, rfl, rfl⟩

/-- Changing an environment but for its privileges and being live. -/
theorem SamePrivileges.setEnv {e : Nat} {env : Env}
    (hst : env.envStatus ≠ .ENV_FREE → (s.envs e).envStatus ≠ .ENV_FREE)
    (hid : env.envId = (s.envs e).envId) (htype : env.envType = (s.envs e).envType)
    (hpriv : env.envTf.privilege = (s.envs e).envTf.privilege) :
  SamePrivileges s (s.setEnv e env)
  := by
  intro e' he'
  by_cases hee : e' = e
  · rw [hee, Kernel.setEnv_envs_self] at he' ⊢
    exact ⟨hst he', hid, htype, hpriv⟩
  · rw [Kernel.setEnv_envs_of_ne _ _ hee] at he' ⊢
    exact ⟨he', rfl, rfl, rfl⟩

theorem Steady.refl (s : Kernel) :
  Steady s s
  := ⟨.refl s, rfl, id⟩

theorem Steady.trans (h : Steady s s') (h' : Steady s' s'') :
  Steady s s''
  := ⟨h.same.trans h'.same, h'.curenv.trans h.curenv, fun hl => h'.live (h.live hl)⟩

theorem MemOnly.steady (h : MemOnly s s') :
  Steady s s'
  := by
  constructor
  · exact .of_envs h.envs
  · exact h.curenv
  · intro hl cur hcur
    rw [h.curenv] at hcur
    rw [Kernel.Live, h.envs]
    exact hl cur hcur

/-- Changing a live environment but for its privileges and being live. -/
theorem Steady.setEnv {e : Nat} {env : Env} (hlive : (s.envs e).envStatus ≠ .ENV_FREE)
    (hst : env.envStatus ≠ .ENV_FREE)
    (hid : env.envId = (s.envs e).envId) (htype : env.envType = (s.envs e).envType)
    (hpriv : env.envTf.privilege = (s.envs e).envTf.privilege) :
  Steady s (s.setEnv e env)
  := by
  constructor
  · exact .setEnv (fun _ => hlive) hid htype hpriv
  · rfl
  · intro hl cur hcur
    obtain ⟨hlt, hcurlive⟩ := hl cur hcur
    use hlt
    by_cases he : cur = e
    · rw [he, Kernel.setEnv_envs_self]
      exact hst
    · rw [Kernel.setEnv_envs_of_ne _ _ he]
      exact hcurlive

theorem Left.after (h : SamePrivileges s s') (h' : Left s' s'') :
  Left s s''
  := ⟨h.trans h'.same, h'.live⟩

/-- A program after which privileges are the same, whether it returns or not. -/
def Settles {α : Type} (m : Prog Kernel α) (s : Kernel) : Prop :=
  m.MayEnd s (fun _ s' => Steady s s') (fun s' => Left s s')

namespace Settles

variable {α β : Type} {m : Prog Kernel α} {f : α → Prog Kernel β}

theorem pure (a : α) :
  Settles (pure a : Prog Kernel α) s
  := mayEnd_pure a |>.mpr (.refl s)

theorem of_keeps (h : Keeps MemOnly m) :
  Settles m s
  := (h s).mono (fun _ _ h' => h'.steady) (fun _ h' => h'.elim)

theorem modify {f : Kernel → Kernel} (h : Steady s (f s)) :
  Settles (modify f) s
  := mayEnd_modify.mpr h

theorem bind (hm : Settles m s) (hf : ∀ a s', Steady s s' → Settles (f a) s') :
  Settles (m >>= f) s
  := by
  unfold Settles at hm ⊢
  rw [mayEnd_bind]
  apply hm.mono
  · intro a s' hs
    apply (hf a s' hs).mono
    · exact fun _ _ h' => hs.trans h'
    · exact fun _ h' => h'.after hs.same
  · exact fun _ h' => h'

/-- A program that reads a value without changing anything, and goes on with it. -/
theorem bind_eq {a : α} (hm : m s = .ok (a, s)) (hf : Settles (f a) s) :
  Settles (m >>= f) s
  := by
  unfold Settles at hf ⊢
  rw [mayEnd_of_bind_eq hm]
  exact hf

theorem get {f : Kernel → Prog Kernel β} (hf : Settles (f s) s) :
  Settles (get >>= f) s
  := by
  unfold Settles at hf ⊢
  rw [mayEnd_bind, mayEnd_get]
  exact hf

theorem ite {c : Prop} [Decidable c] {m' : Prog Kernel α} (h : c → Settles m s)
    (h' : ¬ c → Settles m' s) :
  Settles (if c then m else m') s
  := mayEnd_ite.mpr ⟨h, h'⟩

end Settles

/-! ### Switching and destroying -/

/-- Switching to a live environment. -/
theorem Left.running {e : Nat} (hlive : s.Live e) :
  Left s (s.running e)
  := by
  constructor
  · intro e' he'
    obtain ⟨st, cpu, runs, henv, hfree, -⟩ := s.running_envs e e'
    rw [henv] at he' ⊢
    by_cases hee : e' = e
    · rw [hee]
      exact ⟨hlive.2, rfl, rfl, rfl⟩
    · refine ⟨?_, rfl, rfl, rfl⟩
      intro hf
      -- a free environment other than `e` stays free
      have hsame := s.running_envs_of_free hf hee
      rw [henv] at hsame
      apply he'
      rw [hsame, hf]
  · intro cur hcur
    obtain rfl := Option.some.inj hcur
    obtain ⟨st, cpu, runs, henv, -, hst⟩ := s.running_envs e e
    use hlive.1
    rw [henv, hst rfl]
    simp

theorem envRun_settles {α : Type} {e : Nat} (hlive : s.Live e) :
  Settles (envRun e : Prog Kernel α) s
  := by
  unfold Settles
  by_cases hpg : (s.envs e).envPgdir = none
  · have hpanic : (envRun e : Prog Kernel α) s
        = .error (.panic "PADDR called with invalid kva 00000000") := by
      rw [envRun_run, if_pos hpg]
      rfl
    exact mayEnd_of_panic hpanic
  · exact mayEnd_of_leave (envRun_eq hpg) |>.mpr (.running hlive)

/-- The kernel is left for an environment that may run, or to wait for an interrupt. -/
inductive Resumed (s : Kernel) : Kernel → Prop
  | run {e : Nat} (hlt : e < NENV)
    (hst : (s.envs e).envStatus = .ENV_RUNNABLE ∨ (s.envs e).envStatus = .ENV_RUNNING) :
    Resumed s (s.running e)
  | halt : Resumed s { s with curenv := none }

/-- Choosing the next environment leaves the kernel for one that may run. -/
theorem schedYield_resumed {α : Type} :
  (schedYield : Prog Kernel α).MayEnd s (fun _ _ => False) (Resumed s)
  := by
  have hmod : ∀ i, i % NENV < NENV := fun i => Nat.mod_lt i (by decide)
  have hrun : ∀ e, e < NENV →
      (s.envs e).envStatus = .ENV_RUNNABLE ∨ (s.envs e).envStatus = .ENV_RUNNING →
      (envRun e : Prog Kernel α).MayEnd s (fun _ _ => False) (Resumed s) := by
    intro e hlt hst
    by_cases hpg : (s.envs e).envPgdir = none
    · have hpanic : (envRun e : Prog Kernel α) s
          = .error (.panic "PADDR called with invalid kva 00000000") := by
        rw [envRun_run, if_pos hpg]
        rfl
      exact mayEnd_of_panic hpanic
    · rw [mayEnd_of_leave (envRun_eq hpg)]
      exact .run hlt hst
  rw [schedYield, mayEnd_bind, mayEnd_get]
  generalize List.range NENV = ids
  simp only
  generalize (curEnvx s + 1) % NENV = first
  cases hfind : ids.find? (fun i => decide ((s.envs ((first + i) % NENV)).envType ≠ .ENV_TYPE_IDLE
      ∧ (s.envs ((first + i) % NENV)).envStatus = .ENV_RUNNABLE)) with
  | some i =>
      have hsel := List.find?_some hfind
      simp only [decide_eq_true_eq] at hsel
      exact hrun _ (hmod _) (Or.inl hsel.2)
  | none =>
      simp only
      cases hfind' : ids.find? (fun i => decide ((s.envs ((first + i) % NENV)).envType
          ≠ .ENV_TYPE_IDLE ∧ (s.envs ((first + i) % NENV)).envStatus = .ENV_RUNNING
          ∧ (s.envs ((first + i) % NENV)).envCpunum = 0)) with
      | some i =>
          have hsel := List.find?_some hfind'
          simp only [decide_eq_true_eq] at hsel
          exact hrun _ (hmod _) (Or.inr hsel.2.1)
      | none =>
          simp only
          rw [mayEnd_ite]
          constructor
          · exact fun h => hrun 0 (by decide) h
          · intro _
            obtain ⟨-, heq⟩ | ⟨-, heq⟩ := schedHalt_run (s := s) (α := α)
            · rw [mayEnd_of_leave heq]
              exact .halt
            · exact mayEnd_of_panic heq

/-- Choosing the next environment gives no privileges, and free environments are as they were. -/
theorem schedYield_settles {α : Type} :
  (schedYield : Prog Kernel α).MayEnd s (fun _ _ => False)
    (fun s' => Left s s' ∧ ∀ e, (s.envs e).envStatus = .ENV_FREE → s'.envs e = s.envs e)
  := by
  apply schedYield_resumed.mono (fun _ _ h => h)
  rintro s' (@⟨e, hlt, hst⟩ | _)
  · have hlive : s.Live e := by
      use hlt
      obtain h | h := hst <;> simp [h]
    refine ⟨.running hlive, ?_⟩
    intro e' he'
    apply Kernel.running_envs_of_free he'
    rintro rfl
    exact hlive.2 he'
  · refine ⟨⟨.of_envs rfl, ?_⟩, fun _ _ => rfl⟩
    intro cur hcur
    cases hcur

/-- From `s` to `s'` only the environment `e` was freed. -/
structure FreedOnly (e : Nat) (s s' : Kernel) : Prop where
  curenv : s'.curenv = s.curenv
  free : (s'.envs e).envStatus = .ENV_FREE
  envs : ∀ e' ≠ e, s'.envs e' = s.envs e'

theorem FreedOnly.same {e : Nat} (h : FreedOnly e s s') :
  SamePrivileges s s'
  := by
  intro e' he'
  by_cases hee : e' = e
  · rw [hee, h.free] at he'
    exact (he' rfl).elim
  · rw [h.envs e' hee] at he' ⊢
    exact ⟨he', rfl, rfl, rfl⟩

/-- Freeing an environment that is not the current one. -/
theorem FreedOnly.steady {e : Nat} (h : FreedOnly e s s') (he : s.curenv ≠ some e) :
  Steady s s'
  := by
  constructor
  · exact h.same
  · exact h.curenv
  · intro hl cur hcur
    rw [h.curenv] at hcur
    have hne : cur ≠ e := by
      rintro rfl
      exact he hcur
    rw [Kernel.Live, h.envs cur hne]
    exact hl cur hcur

/-- From `s` to `s'` the environment `e` was freed and put at the head of the list. -/
structure EnvFreed (e : Nat) (s s' : Kernel) : Prop where
  curenv : s'.curenv = s.curenv
  envs : s'.envs = Function.update s.envs e { s.envs e with
    envPgdir := none
    envStatus := .ENV_FREE
    envLink := s.envFreeList }
  envFreeList : s'.envFreeList = some e

theorem EnvFreed.only {e : Nat} (h : EnvFreed e s s') :
  FreedOnly e s s'
  := by
  constructor
  case curenv => exact h.curenv
  case free => rw [h.envs, Function.update_self]
  case envs =>
    intro e' he'
    rw [h.envs, Function.update_of_ne he']

/-- Freeing an environment does not leave the kernel. -/
theorem envFree_freed (e : Nat) :
  (envFree e).MayEnd s (fun _ s' => EnvFreed e s s') (fun _ => False)
  := by
  rw [envFree, mayEnd_bind, mayEnd_get, mayEnd_bind, mayEnd_orElse]
  refine ⟨?_, fun _ => mayEnd_fault 0⟩
  intro pgdir _
  rw [mayEnd_bind]
  apply (keeps_forUp MemOnly.composes (MemOnly.envFreePde pgdir) 0 _ s).mono _ (fun _ h => h)
  intro _ s1 h1
  rw [mayEnd_bind, mayEnd_modify, mayEnd_bind]
  apply (MemOnly.pa2page _ _).mono _ (fun _ h => h)
  intro pp s2 h2
  rw [mayEnd_bind]
  apply ((MemOnly.pageDecref pp).after MemOnly.composes h2).mono _ (fun _ h => h)
  intro _ s3 h3
  rw [mayEnd_modify]
  have hlist : s3.envFreeList = s.envFreeList := h3.envFreeList.trans h1.envFreeList
  constructor
  case curenv => exact h3.curenv.trans h1.curenv
  case envs =>
    simp only [Kernel.setEnv]
    rw [hlist, h3.envs]
    simp only [Kernel.setEnv, Function.update_self, Function.update_idem, h1.envs]
  case envFreeList => rfl

/-- Destroying the current environment frees it and leaves the kernel. -/
theorem envDestroy_self {e : Nat} (hcur : s.curenv = some e) :
  (envDestroy e).MayEnd s (fun _ _ => False)
    (fun s' => Left s s' ∧ (s'.envs e).envStatus = .ENV_FREE)
  := by
  rw [envDestroy, mayEnd_bind, mayEnd_get, mayEnd_ite]
  constructor
  · rintro ⟨-, hne⟩
    exact (hne hcur).elim
  · intro _
    rw [mayEnd_bind]
    apply (envFree_freed e).mono _ (fun _ h => h.elim)
    intro _ s1 hfreed
    have h1 := hfreed.only
    rw [mayEnd_bind, mayEnd_get, mayEnd_ite]
    constructor
    · intro _
      rw [mayEnd_bind, mayEnd_modify]
      apply schedYield_settles.mono (fun _ _ h => h)
      rintro s2 ⟨hleft, hfree⟩
      have hsame : SamePrivileges s { s1 with curenv := none } := h1.same
      constructor
      · exact Left.after hsame hleft
      · rw [hfree e h1.free]
        exact h1.free
    · intro hne
      exact (hne (h1.curenv.trans hcur)).elim

/-- Destroying an environment gives no privileges. -/
theorem envDestroy_settles (e : Nat) :
  Settles (envDestroy e) s
  := by
  by_cases hcur : s.curenv = some e
  · exact (envDestroy_self hcur).mono (fun _ _ h => h.elim) (fun _ h => h.1)
  · unfold Settles
    rw [envDestroy, mayEnd_bind, mayEnd_get, mayEnd_ite]
    constructor
    · rintro ⟨hrun, -⟩
      rw [mayEnd_modify]
      apply Steady.setEnv
      · rw [hrun]
        simp
      · simp
      · rfl
      · rfl
      · rfl
    · intro _
      rw [mayEnd_bind]
      apply (envFree_freed e).mono _ (fun _ h => h.elim)
      intro _ s1 hfreed
      have h1 := hfreed.only
      rw [mayEnd_bind, mayEnd_get, mayEnd_ite]
      constructor
      · intro hcur'
        exact (hcur (h1.curenv.symm.trans hcur')).elim
      · intro _
        rw [mayEnd_pure]
        exact h1.steady hcur

theorem userMemAssert_settles (e : Nat) (va len perm : Word) :
  Settles (userMemAssert e va len perm) s
  := by
  apply Settles.get
  apply Settles.bind
  · exact .of_keeps (keeps_orElse MemOnly.composes _ (keeps_fault _))
  intro pgdir s1 _
  apply Settles.bind (.of_keeps (MemOnly.userMemCheck _ _ _ _))
  intro r s2 _
  exact .ite (fun _ => envDestroy_settles e) (fun _ => .pure ())

/-! ### Creating environments -/

/-- The generation of an identifier without the index is the same generation. -/
theorem generation_toNat (w : Word) :
  (w &&& ~~~ (1023 : Word)).toNat / 1024 = w.toNat / 1024
  := by
  have hmask : ∀ i < 32, (1023 : Word).getLsbD i = decide (i < 10) := by decide
  have h := congrArg BitVec.toNat (shiftRight_clear_low (w := w) hmask)
  simpa [BitVec.toNat_ushiftRight, Nat.shiftRight_eq_div_pow] using h

/-- Adding an index to a generation does not change the generation. -/
theorem generation_or {e : Nat} (he : e < NENV) (w : Word) :
  (w ||| BitVec.ofNat 32 e).toNat / 1024 = w.toNat / 1024
  := by
  have hpow : 1024 = 2 ^ 10 := by decide
  simp only [NENV] at he
  rw [BitVec.toNat_or, BitVec.toNat_ofNat, Nat.mod_eq_of_lt (by omega), hpow,
    ← Nat.shiftRight_eq_div_pow, ← Nat.shiftRight_eq_div_pow, Nat.shiftRight_or_distrib,
    Nat.shiftRight_eq_div_pow e, Nat.div_eq_of_lt (by omega), Nat.or_zero]

/-- An environment that is used again gets another identifier. -/
theorem nextEnvId_ne {e : Nat} (he : e < NENV) (id : Word) :
  nextEnvId e id ≠ id
  := by
  intro heq
  have hgen := generation_toNat (id + (1 : Word) <<< ENVGENSHIFT)
  have hsum : (id + (1 : Word) <<< ENVGENSHIFT).toNat = (id.toNat + 4096) % 4294967296 := by
    rw [BitVec.toNat_add]
    rfl
  have hlt := id.isLt
  have h := congrArg (fun w => w.toNat / 1024) heq
  simp only [nextEnvId] at h
  rw [generation_or he] at h
  split at h
  case isTrue hneg =>
    have hone : ((1 : Word) <<< ENVGENSHIFT).toNat = 4096 := by decide
    rw [hone] at h
    have hzero : (0 : Word).toInt = 0 := by decide
    rw [BitVec.sle_iff_toInt_le, hzero, BitVec.toInt_eq_toNat_cond] at hneg
    split at hneg
    · omega
    · omega
  case isFalse =>
    rw [hgen, hsum] at h
    omega

/-- From `s` to `s'` only the environment `e` was set up anew, with the type `type`. -/
structure AllocOnly (type : EnvType) (e : Nat) (s s' : Kernel) : Prop where
  curenv : s'.curenv = s.curenv
  lt : e < NENV
  id : (s'.envs e).envId ≠ (s.envs e).envId
  tf : (s'.envs e).envTf = initialTf
  type : (s'.envs e).envType = type
  status : (s'.envs e).envStatus ≠ .ENV_FREE
  envs : ∀ e' ≠ e, s'.envs e' = s.envs e'

/-- From `s` to `s'` the environment at the head of the list was set up. -/
structure EnvMade (e : Nat) (type : EnvType) (parentId : Word) (s s' : Kernel) : Prop where
  head : s.envFreeList = some e
  lt : e < NENV
  curenv : s'.curenv = s.curenv
  envs : ∃ p, s'.envs = Function.update s.envs e (newEnv (s.envs e) e p type parentId)
  envFreeList : s'.envFreeList = (s.envs e).envLink

theorem EnvMade.only {e : Nat} {type : EnvType} {parentId : Word} (h : EnvMade e type parentId s s') :
  AllocOnly type e s s'
  := by
  obtain ⟨p, henvs⟩ := h.envs
  have hnew : s'.envs e = newEnv (s.envs e) e p type parentId := by rw [henvs, Function.update_self]
  constructor
  case curenv => exact h.curenv
  case lt => exact h.lt
  case id =>
    rw [hnew]
    exact nextEnvId_ne h.lt _
  case tf =>
    rw [hnew]
    rfl
  case type =>
    rw [hnew]
    rfl
  case status =>
    rw [hnew]
    simp [newEnv]
  case envs =>
    intro e' he'
    rw [henvs, Function.update_of_ne he']

theorem envSetupVm_made (e : Nat) :
  (envSetupVm e).MayEnd s (fun r s' => (r = -E_NO_MEM ∧ MemOnly s s') ∨
    (r = 0 ∧ s'.curenv = s.curenv ∧ s'.envFreeList = s.envFreeList ∧
      ∃ p, s'.envs = Function.update s.envs e { s.envs e with envPgdir := some p }))
    (fun _ => False)
  := by
  rw [envSetupVm, mayEnd_bind]
  apply (MemOnly.pageAlloc s).mono _ (fun _ h => h)
  intro p s1 h1
  cases p with
  | none => exact mayEnd_pure _ |>.mpr (Or.inl ⟨rfl, h1⟩)
  | some p =>
      simp only
      rw [mayEnd_bind]
      apply ((MemOnly.KADDR _).after MemOnly.composes h1).mono _ (fun _ h => h)
      intro pg s2 h2
      rw [mayEnd_bind, mayEnd_modify]
      have hcopy : ∀ i, Keeps MemOnly (copyKernPde pg i) := by
        intro i
        apply keeps_ite
        · exact MemOnly.setEntry _ _ _
        · exact MemOnly.keeps_pure ()
      rw [mayEnd_bind]
      apply (keeps_forUp MemOnly.composes hcopy 0 _ _).mono _ (fun _ h => h)
      intro _ s3 h3
      rw [mayEnd_bind]
      apply ((MemOnly.pageIncref p).after MemOnly.composes h3).mono _ (fun _ h => h)
      intro _ s4 h4
      rw [mayEnd_bind, mayEnd_modify, mayEnd_pure]
      refine Or.inr ⟨rfl, h4.curenv.trans h2.curenv, h4.envFreeList.trans h2.envFreeList, pg, ?_⟩
      change s4.envs = _
      rw [h4.envs, Kernel.setEnv, h2.envs]

/-- Creating an environment sets up the first free one, or changes none. -/
theorem envAllocType_made (type : EnvType) (parentId : Word) :
  (envAllocType type parentId).MayEnd s (fun r s' => (∃ e, r = .ok e ∧ EnvMade e type parentId s s')
    ∨ (∃ w, r = .error w ∧ MemOnly s s')) (fun _ => False)
  := by
  rw [envAllocType, mayEnd_bind, mayEnd_get]
  cases hhead : s.envFreeList with
  | none =>
      refine mayEnd_pure _ |>.mpr (Or.inr ⟨_, rfl, ?_⟩)
      exact MemOnly.composes.refl s
  | some e =>
      simp only
      rw [mayEnd_ite]
      refine ⟨fun _ => mayEnd_fault _, ?_⟩
      intro he
      have helt : e < NENV := by omega
      rw [mayEnd_bind]
      apply (envSetupVm_made e).mono _ (fun _ h => h)
      rintro r s1 (⟨rfl, h1⟩ | ⟨rfl, hcur, hlist, p, henvs⟩)
      · rw [mayEnd_ite]
        refine ⟨?_, fun h => (h (by decide)).elim⟩
        intro _
        exact mayEnd_pure _ |>.mpr (Or.inr ⟨_, rfl, h1⟩)
      · rw [mayEnd_ite]
        refine ⟨fun h => absurd h (by decide), ?_⟩
        intro _
        rw [mayEnd_bind, mayEnd_modify, mayEnd_bind, mayEnd_modify, mayEnd_pure]
        left
        refine ⟨e, rfl, ?_⟩
        simp only [Kernel.setEnv, henvs, Function.update_self, Function.update_idem]
        constructor
        case head => exact hhead
        case lt => exact helt
        case curenv => exact hcur
        case envs => exact ⟨p, rfl⟩
        case envFreeList => rfl

/-- Creating an environment sets up that environment, or none. -/
theorem envAllocType_mayEnd (type : EnvType) (parentId : Word) :
  (envAllocType type parentId).MayEnd s (fun r s' => match r with
    | .error _ => Steady s s'
    | .ok e => AllocOnly type e s s') (fun _ => False)
  := by
  apply (envAllocType_made type parentId).mono _ (fun _ h => h)
  rintro r s' (⟨e, rfl, hmade⟩ | ⟨w, rfl, hmem⟩)
  · exact hmade.only
  · exact hmem.steady

/-! ### System calls -/

/-- From `s` to `s'` an environment may be given the privileges `set` allows for it; one
that is created has the privileges of a new environment or ones that `fork` allows. -/
def Touched (set : Nat → Privilege → Prop) (fork : Privilege → Prop) (s s' : Kernel) : Prop :=
  ∀ e, (s'.envs e).envStatus ≠ .ENV_FREE →
    ((s.envs e).envStatus ≠ .ENV_FREE
      ∧ (s'.envs e).envId = (s.envs e).envId
      ∧ (s'.envs e).envType = (s.envs e).envType
      ∧ ((s'.envs e).envTf.privilege = (s.envs e).envTf.privilege
        ∨ set e (s'.envs e).envTf.privilege)) ∨
    ((s'.envs e).envId ≠ (s.envs e).envId
      ∧ ((s'.envs e).envTf.privilege = initialTf.privilege
        ∨ fork (s'.envs e).envTf.privilege))

namespace Touched

variable {set : Nat → Privilege → Prop} {fork : Privilege → Prop}

theorem of_same (h : SamePrivileges s s') :
  Touched set fork s s'
  := by
  intro e he
  obtain ⟨hlive, hid, htype, hpriv⟩ := h e he
  exact Or.inl ⟨hlive, hid, htype, Or.inl hpriv⟩

/-- What keeps privileges afterwards does not matter. -/
theorem trans (h : Touched set fork s s') (h' : SamePrivileges s' s'') :
  Touched set fork s s''
  := by
  intro e he
  obtain ⟨he', hid', htype', hpriv'⟩ := h' e he
  rw [hid', htype', hpriv']
  exact h e he'

/-- What may be given to environments may be widened. -/
theorem imp {set' : Nat → Privilege → Prop} {fork' : Privilege → Prop}
    (h : Touched set fork s s') (hset : ∀ e p, set e p → set' e p) (hfork : ∀ p, fork p → fork' p) :
  Touched set' fork' s s'
  := by
  intro e he
  obtain ⟨hlive, hid, htype, hpriv⟩ | ⟨hid, hpriv⟩ := h e he
  · exact Or.inl ⟨hlive, hid, htype, hpriv.imp_right (hset e _)⟩
  · exact Or.inr ⟨hid, hpriv.imp_right (hfork _)⟩

end Touched

/-- What `sys_env_set_trapframe` makes of the privileges of an environment. -/
def SetFrame (s : Kernel) (cur : Nat) (syscallno a1 a2 : Word) (e : Nat) (p : Privilege) : Prop :=
  Syscall.ofWord syscallno = some .SYS_env_set_trapframe ∧ s.findEnv cur a1 true = some e
    ∧ (s.wordAt (a2 + 48)).toNat < UTOP
    ∧ p = { (s.frameAt a2).privilege with eflags := (s.frameAt a2).tfEflags ||| FL_IF }

/-- The privileges `sys_exofork` gives. -/
def ForkFrame (s : Kernel) (cur : Nat) (syscallno : Word) (p : Privilege) : Prop :=
  Syscall.ofWord syscallno = some .SYS_exofork ∧ p = (s.envs cur).envTf.privilege

/-- The current environment stays the current one, and is live, over a system call that
returns to it. -/
structure Called (set : Nat → Privilege → Prop) (fork : Privilege → Prop) (cur : Nat)
    (s s' : Kernel) : Prop where
  touched : Touched set fork s s'
  curenv : s'.curenv = some cur
  live : s'.Live cur

theorem Called.imp {set set' : Nat → Privilege → Prop} {fork fork' : Privilege → Prop} {cur : Nat}
    (h : Called set fork cur s s') (hset : ∀ e p, set e p → set' e p)
    (hfork : ∀ p, fork p → fork' p) :
  Called set' fork' cur s s'
  := ⟨h.touched.imp hset hfork, h.curenv, h.live⟩

section Calls

variable {cur : Nat} (hcur : s.curenv = some cur) (hlive : s.Live cur)
include hcur hlive

omit hlive in
theorem sysCputs_settles (va len : Word) :
  Settles (do sysCputs va len; pure 0 : Prog Kernel Word) s
  := by
  apply Settles.bind
  · apply Settles.bind_eq (curenv_eq hcur)
    apply Settles.bind (userMemAssert_settles _ _ _ _)
    exact fun _ _ _ => .of_keeps (MemOnly.cprintfString _ _)
  · exact fun _ _ _ => .pure 0

omit hlive in
theorem sysEnvDestroy_settles (envid : Word) :
  Settles (sysEnvDestroy envid) s
  := by
  apply Settles.bind_eq (envid2env_eq hcur envid true)
  cases s.findEnv cur envid true with
  | none => exact .pure _
  | some e => exact (envDestroy_settles e).bind (fun _ _ _ => .pure 0)

theorem sysEnvSetStatus_settles (envid status : Word) :
  Settles (sysEnvSetStatus envid status) s
  := by
  unfold sysEnvSetStatus
  cases hst : statusOfWord status with
  | none => exact .pure _
  | some st =>
      apply Settles.bind_eq (envid2env_eq hcur envid true)
      cases hfind : s.findEnv cur envid true with
      | none => exact .pure _
      | some e =>
          have helive := findEnv_live hlive hfind
          have hne : st ≠ .ENV_FREE := by
            rintro rfl
            unfold statusOfWord at hst
            split at hst
            · cases hst
            · split at hst
              · cases hst
              · cases hst
          apply Settles.bind
          · exact .modify (.setEnv helive.2 hne rfl rfl rfl)
          · exact fun _ _ _ => .pure 0

theorem sysEnvSetPgfaultUpcall_settles (envid func : Word) :
  Settles (sysEnvSetPgfaultUpcall envid func) s
  := by
  apply Settles.bind_eq (envid2env_eq hcur envid true)
  cases hfind : s.findEnv cur envid true with
  | none => exact .pure _
  | some e =>
      have helive := findEnv_live hlive hfind
      apply Settles.ite
      · exact fun _ => .pure _
      · intro _
        apply Settles.bind
        · exact .modify (.setEnv helive.2 helive.2 rfl rfl rfl)
        · exact fun _ _ _ => .pure 0

omit hcur hlive in
theorem sysPageAlloc_keeps (envid va perm : Word) :
  Keeps MemOnly (sysPageAlloc envid va perm)
  := by
  apply keeps_ite (MemOnly.keeps_pure _)
  apply keeps_ite (MemOnly.keeps_pure _)
  apply MemOnly.keeps_bind (MemOnly.envid2env _ _)
  intro e
  cases e with
  | none => exact MemOnly.keeps_pure _
  | some e =>
      apply MemOnly.keeps_bind MemOnly.pageAlloc
      intro pp
      cases pp with
      | none => exact MemOnly.keeps_pure _
      | some pp =>
          apply MemOnly.keeps_bind (MemOnly.envPgdirOf e)
          intro pgdir
          apply MemOnly.keeps_bind (MemOnly.pageInsert _ _ _ _)
          intro r
          apply keeps_ite
          · exact MemOnly.keeps_bind (MemOnly.pageFree _) (fun _ => MemOnly.keeps_pure _)
          · exact MemOnly.keeps_pure _

omit hcur hlive in
theorem sysPageMap_keeps (srcenvid srcva dstenvid dstva perm : Word) :
  Keeps MemOnly (sysPageMap srcenvid srcva dstenvid dstva perm)
  := by
  apply MemOnly.keeps_bind (MemOnly.envid2env _ _)
  intro se
  cases se with
  | none => exact MemOnly.keeps_pure _
  | some se =>
  apply MemOnly.keeps_bind (MemOnly.envid2env _ _)
  intro de
  cases de with
  | none => exact MemOnly.keeps_pure _
  | some de =>
  apply keeps_ite (MemOnly.keeps_pure _)
  apply keeps_ite (MemOnly.keeps_pure _)
  apply MemOnly.keeps_bind (MemOnly.envPgdirOf se)
  intro sepgdir
  apply MemOnly.keeps_bind (MemOnly.pageLookup _ _)
  intro r
  cases r with
  | none => exact MemOnly.keeps_pure _
  | some r =>
      apply MemOnly.keeps_get
      intro s
      apply keeps_ite (MemOnly.keeps_pure _)
      apply MemOnly.keeps_bind (MemOnly.envPgdirOf de)
      intro depgdir
      apply MemOnly.keeps_bind (MemOnly.pageInsert _ _ _ _)
      exact fun _ => keeps_ite (MemOnly.keeps_pure _) (MemOnly.keeps_pure _)

omit hcur hlive in
theorem sysPageUnmap_keeps (envid va : Word) :
  Keeps MemOnly (sysPageUnmap envid va)
  := by
  apply keeps_ite (MemOnly.keeps_pure _)
  apply MemOnly.keeps_bind (MemOnly.envid2env _ _)
  intro e
  cases e with
  | none => exact MemOnly.keeps_pure _
  | some e =>
      apply MemOnly.keeps_bind (MemOnly.envPgdirOf e)
      intro pgdir
      exact MemOnly.keeps_bind (MemOnly.pageRemove _ _) (fun _ => MemOnly.keeps_pure _)

omit hlive in
theorem ipcReceive_settles {e : Nat} (helive : (s.envs e).envStatus ≠ .ENV_FREE)
    (value perm : Word) :
  Settles (ipcReceive e value perm) s
  := by
  apply Settles.bind_eq (curenv_eq hcur)
  apply Settles.bind
  · exact .modify (.setEnv helive (by simp) rfl rfl rfl)
  · exact fun _ _ _ => .pure 0

theorem sysIpcTrySend_settles (envid value srcva perm : Word) :
  Settles (sysIpcTrySend envid value srcva perm) s
  := by
  apply Settles.bind_eq (envid2env_eq hcur envid false)
  cases hfind : s.findEnv cur envid false with
  | none => exact .pure _
  | some e =>
  have helive := findEnv_live hlive hfind
  apply Settles.get
  apply Settles.ite
  · exact fun _ => .pure _
  intro _
  apply Settles.ite
  · intro _
    -- looking the page up and mapping it changes no environment
    have hlook : Keeps MemOnly (do
        let pgdir ← curPgdir
        pageLookup pgdir srcva : Prog Kernel (Option (Nat × (Nat × Nat)))) :=
      MemOnly.keeps_bind MemOnly.curPgdir (fun _ => MemOnly.pageLookup _ _)
    unfold Settles
    rw [← bind_assoc, mayEnd_bind]
    apply (hlook s).mono _ (fun _ h => h.elim)
    intro r s1 h1
    cases r with
    | none => exact mayEnd_pure _ |>.mpr h1.steady
    | some r =>
        obtain ⟨page, pte⟩ := r
        rw [ipcSendPage, mayEnd_bind, mayEnd_get, mayEnd_ite]
        refine ⟨fun _ => mayEnd_pure _ |>.mpr h1.steady, ?_⟩
        intro _
        rw [mayEnd_bind]
        apply ((MemOnly.envPgdirOf e).after MemOnly.composes h1).mono _ (fun _ h => h.elim)
        intro pgdir s2 h2
        rw [mayEnd_bind]
        apply ((MemOnly.pageInsert _ _ _ _).after MemOnly.composes h2).mono _ (fun _ h => h.elim)
        intro r s3 h3
        rw [mayEnd_ite]
        refine ⟨fun _ => mayEnd_pure _ |>.mpr h3.steady, ?_⟩
        intro _
        have hcur3 : s3.curenv = some cur := h3.curenv.trans hcur
        have helive3 : (s3.envs e).envStatus ≠ .ENV_FREE := by
          rw [h3.envs]
          exact helive.2
        apply (ipcReceive_settles hcur3 helive3 value perm).mono
        · exact fun _ _ h => h3.steady.trans h
        · exact fun _ h => Left.after h3.steady.same h
  · exact fun _ => ipcReceive_settles hcur helive.2 value perm

theorem sysIpcRecv_settles (dstva : Word) :
  Settles (sysIpcRecv dstva) s
  := by
  apply Settles.ite
  · exact fun _ => .pure _
  · intro _
    apply Settles.bind_eq (curenv_eq hcur)
    apply Settles.bind
    · exact .modify (.setEnv hlive.2 (by simp) rfl rfl rfl)
    · exact fun _ _ _ => .pure 0

theorem Steady.called {set : Nat → Privilege → Prop} {fork : Privilege → Prop}
    (h : Steady s s') :
  Called set fork cur s s'
  := by
  have hcur' : s'.curenv = some cur := h.curenv.trans hcur
  have hcurlive : CurLive s := by
    intro e he
    rw [hcur] at he
    obtain rfl := Option.some.inj he
    exact hlive
  exact ⟨.of_same h.same, hcur', h.live hcurlive cur hcur'⟩

/-- What settles the current environment may return to it. -/
theorem Settles.called {α : Type} {set : Nat → Privilege → Prop} {fork : Privilege → Prop}
    {m : Prog Kernel α} (h : Settles m s) :
  m.MayEnd s (fun _ s' => Called set fork cur s s') (Left s)
  := h.mono (fun _ _ h' => h'.called hcur hlive) (fun _ h' => h')

/-- Giving a new environment the privileges of a new environment, or ones that `fork`
allows. -/
theorem AllocOnly.called {set : Nat → Privilege → Prop} {fork : Privilege → Prop} {e : Nat}
    {type : EnvType} {env : Env} (h : AllocOnly type e s s') (hid : env.envId = (s'.envs e).envId)
    (hst : env.envStatus ≠ .ENV_FREE)
    (hpriv : env.envTf.privilege = initialTf.privilege ∨ fork env.envTf.privilege) :
  Called set fork cur s (s'.setEnv e env)
  := by
  constructor
  · intro e' he'
    by_cases hee : e' = e
    · right
      rw [hee, Kernel.setEnv_envs_self, hid]
      exact ⟨h.id, hpriv⟩
    · left
      rw [Kernel.setEnv_envs_of_ne _ _ hee, h.envs e' hee] at he' ⊢
      exact ⟨he', rfl, rfl, Or.inl rfl⟩
  · exact h.curenv.trans hcur
  · use hlive.1
    by_cases hee : cur = e
    · rw [hee, Kernel.setEnv_envs_self]
      exact hst
    · rw [Kernel.setEnv_envs_of_ne _ _ hee, h.envs cur hee]
      exact hlive.2

theorem sysExofork_called :
  (sysExofork : Prog Kernel Word).MayEnd s (fun _ s' =>
    Called (fun _ _ => False) (fun p => p = (s.envs cur).envTf.privilege) cur s s') (Left s)
  := by
  rw [sysExofork, mayEnd_of_bind_eq (curenv_eq hcur), mayEnd_bind, mayEnd_get, mayEnd_bind]
  apply (envAllocType_mayEnd _ _).mono _ (fun _ h => h.elim)
  intro r s1 h1
  cases r with
  | error r => exact mayEnd_pure _ |>.mpr (h1.called hcur hlive)
  | ok e =>
      simp only at h1 ⊢
      rw [mayEnd_bind, mayEnd_get, mayEnd_bind, mayEnd_set, mayEnd_pure]
      apply h1.called hcur hlive
      · rfl
      · simp
      · by_cases hee : cur = e
        · left
          rw [hee, h1.tf]
          rfl
        · right
          rw [h1.envs cur hee]
          rfl

theorem sysEnvMkguest_called {set : Nat → Privilege → Prop} {fork : Privilege → Prop}
    (size eip : Word) :
  (sysEnvMkguest size eip).MayEnd s (fun _ s' => Called set fork cur s s') (Left s)
  := by
  rw [sysEnvMkguest, mayEnd_of_bind_eq (curenv_eq hcur), mayEnd_bind, mayEnd_get, mayEnd_bind]
  apply (envAllocType_mayEnd _ _).mono _ (fun _ h => h.elim)
  intro r s1 h1
  cases r with
  | error r => exact mayEnd_pure _ |>.mpr (h1.called hcur hlive)
  | ok e =>
      simp only at h1 ⊢
      rw [mayEnd_bind, mayEnd_get, mayEnd_bind, mayEnd_set, mayEnd_pure]
      apply h1.called hcur hlive
      · rfl
      · simp
      · left
        rw [h1.tf]
        rfl

/-- `sys_env_set_trapframe` gives the environment it finds the frame it is passed, with
interrupts enabled. -/
theorem sysEnvSetTrapframe_called (envid tf : Word) :
  (sysEnvSetTrapframe envid tf).MayEnd s (fun _ s' =>
    Called (fun e p => s.findEnv cur envid true = some e
      ∧ (s.wordAt (tf + 48)).toNat < UTOP
      ∧ p = { (s.frameAt tf).privilege with eflags := (s.frameAt tf).tfEflags ||| FL_IF })
      (fun _ => False) cur s s') (Left s)
  := by
  rw [sysEnvSetTrapframe, mayEnd_of_bind_eq (envid2env_eq hcur envid true)]
  cases hfind : s.findEnv cur envid true with
  | none => exact mayEnd_pure _ |>.mpr ((Steady.refl s).called hcur hlive)
  | some e =>
      have helive := findEnv_live hlive hfind
      simp only
      rw [mayEnd_bind]
      apply (kernLoad32_reads (tf + 48)).mono _ (fun _ h => h.elim)
      rintro eip s1 ⟨h1, rfl⟩
      rw [mayEnd_ite]
      constructor
      · intro _
        exact mayEnd_pure _ |>.mpr (h1.memOnly.steady.called hcur hlive)
      · intro heip
        rw [mayEnd_bind]
        apply (kernLoadWords_reads tf 17).mono _ (fun _ h => h.elim)
        rintro ws s2 ⟨h2, rfl⟩
        have hframe : Trapframe.ofWords (fun i => (s1.wordsAt tf 17).getD i 0)
            = s.frameAt tf := by
          rw [h1.wordsAt]
          rfl
        have henvs : s2.envs = s.envs := (h1.trans h2).memOnly.envs
        rw [hframe, mayEnd_bind, mayEnd_modify, mayEnd_pure]
        constructor
        · intro e' he'
          left
          by_cases hee : e' = e
          · rw [hee, Kernel.setEnv_envs_self, henvs]
            exact ⟨helive.2, rfl, rfl, Or.inr ⟨rfl, Nat.lt_of_not_le heip, rfl⟩⟩
          · rw [Kernel.setEnv_envs_of_ne _ _ hee, henvs] at he' ⊢
            exact ⟨he', rfl, rfl, Or.inl rfl⟩
        · exact (h1.trans h2).memOnly.curenv.trans hcur
        · use hlive.1
          by_cases hee : cur = e
          · rw [hee, Kernel.setEnv_envs_self, henvs]
            exact helive.2
          · rw [Kernel.setEnv_envs_of_ne _ _ hee, henvs]
            exact hlive.2

omit hcur hlive in
theorem sysYield_settles {α : Type} (a : α) :
  Settles (do sysYield; pure a : Prog Kernel α) s
  := by
  apply Settles.bind
  · exact schedYield_settles.mono (fun _ _ h => h.elim) (fun _ h => h.1)
  · exact fun _ _ _ => .pure a

omit hlive in
theorem sysGetenvid_settles :
  Settles sysGetenvid s
  := .bind_eq (curenv_eq hcur) (.get (.pure _))

/-- What a system call of the current environment does to privileges. -/
theorem syscall_called (syscallno a1 a2 a3 a4 a5 : Word) :
  (syscall syscallno a1 a2 a3 a4 a5).MayEnd s (fun _ s' =>
    Called (SetFrame s cur syscallno a1 a2) (ForkFrame s cur syscallno) cur s s') (Left s)
  := by
  unfold syscall SetFrame ForkFrame
  cases Syscall.ofWord syscallno with
  | none => exact mayEnd_panic _
  | some sys =>
      cases sys with
      | SYS_cputs => exact (sysCputs_settles hcur a1 a2).called hcur hlive
      | SYS_cgetc => exact (Settles.of_keeps MemOnly.consGetc).called hcur hlive
      | SYS_getenvid => exact (sysGetenvid_settles hcur).called hcur hlive
      | SYS_env_destroy =>
          apply Settles.called hcur hlive
          exact (sysEnvDestroy_settles hcur a1).bind (fun _ _ _ => .pure 0)
      | SYS_page_alloc =>
          exact (Settles.of_keeps (sysPageAlloc_keeps a1 a2 a3)).called hcur hlive
      | SYS_page_map =>
          exact (Settles.of_keeps (sysPageMap_keeps a1 a2 a3 a4 a5)).called hcur hlive
      | SYS_page_unmap => exact (Settles.of_keeps (sysPageUnmap_keeps a1 a2)).called hcur hlive
      | SYS_exofork =>
          refine MayEnd.mono (sysExofork_called hcur hlive) ?_ (fun _ h => h)
          intro _ s' h
          exact Called.imp h (fun _ _ h' => h'.elim) (fun _ h' => ⟨rfl, h'⟩)
      | SYS_env_set_status => exact (sysEnvSetStatus_settles hcur hlive a1 a2).called hcur hlive
      | SYS_env_set_trapframe =>
          refine MayEnd.mono (sysEnvSetTrapframe_called hcur hlive a1 a2) ?_ (fun _ h => h)
          intro _ s' h
          exact Called.imp h (fun _ _ h' => ⟨rfl, h'⟩) (fun _ h' => h'.elim)
      | SYS_env_set_pgfault_upcall =>
          exact (sysEnvSetPgfaultUpcall_settles hcur hlive a1 a2).called hcur hlive
      | SYS_yield => exact (sysYield_settles 0).called hcur hlive
      | SYS_ipc_try_send =>
          exact (sysIpcTrySend_settles hcur hlive a1 a2 a3 a4).called hcur hlive
      | SYS_ipc_recv => exact (sysIpcRecv_settles hcur hlive a1).called hcur hlive
      | SYS_env_mkguest => exact sysEnvMkguest_called hcur hlive a1 a2

end Calls

end Jos
