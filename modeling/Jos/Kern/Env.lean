import Jos.Kern.Pmap

/-!
# Environments

The functions of `kern/env.c` and `kern/sched.c`: finding an environment by its
identifier, creating, running, freeing and destroying environments, and choosing the
next one to run.  Running an environment leaves the kernel for good.
-/

namespace Jos

open Bytes

/-- Whether a return value is negative. -/
def isError (r : Word) : Bool := r.slt 0

/-! ### Identifiers -/

/-- The environment with an identifier, if there is one that the caller may refer to. -/
def envid2env (envid : Word) (checkperm : Bool) : Prog Kernel (Option Nat) := do
  if envid = 0 then
    let e ← curenv
    pure (some e)
  else
    let s ← get
    let e := ENVX envid
    if (s.envs e).envStatus = .ENV_FREE ∨ (s.envs e).envId ≠ envid then
      pure none
    else if checkperm = true ∧ s.curenv ≠ some e then
      let cur ← curenv
      if (s.envs e).envParentId ≠ (s.envs cur).envId then
        pure none
      else
        pure (some e)
    else
      pure (some e)

/-- The `i`-th environment when it is marked as free. The test for the last one compares
with `NENV`, so that the last one is linked to what follows `envs`. -/
def initEnv (i : Nat) (env : Env) : Env :=
  { env with
    envId := 0
    envStatus := .ENV_FREE
    envRuns := 0
    envParentId := 0
    envLink := if i ≠ NENV then some (i + 1) else none }

/-- Mark all environments as free and link them in order. -/
def envInit : Prog Kernel Unit := do
  Prog.forUp 0 NENV (fun i => modify (fun s => s.setEnv i (initEnv i (s.envs i))))
  modify (fun s => { s with envFreeList := some 0 })

/-! ### Creating environments -/

/-- Copy the `i`-th entry of the kernel's directory if it lies above the user's part. -/
def copyKernPde (pgdir i : Nat) : Prog Kernel Unit :=
  if i ≥ PDX (BitVec.ofNat 32 UTOP) then
    modify (fun s => s.setEntry pgdir i (s.entry s.kernPgdir i))
  else
    pure ()

/-- Make a page directory for the environment `e`. -/
def envSetupVm (e : Nat) : Prog Kernel Word := do
  match ← pageAlloc with
  | none => pure (-E_NO_MEM)
  | some p =>
      let pgdir ← page2kva p
      modify (fun s => s.setEnv e { s.envs e with envPgdir := some pgdir })
      Prog.forUp 0 NPDENTRIES (copyKernPde pgdir)
      pageIncref p
      modify (fun s => s.setEntry pgdir (PDX (BitVec.ofNat 32 UVPT))
        (page2pa pgdir ||| PTE_P ||| PTE_U))
      pure 0

/-- The identifier of an environment that is used again. -/
def nextEnvId (e : Nat) (envId : Word) : Word :=
  let generation := (envId + (1 : Word) <<< ENVGENSHIFT) &&& ~~~ (1023 : Word)
  let generation := if generation.sle 0 then (1 : Word) <<< ENVGENSHIFT else generation
  generation ||| BitVec.ofNat 32 e

theorem ENVX_lt (envid : Word) :
  ENVX envid < NENV
  := by
  rw [ENVX, BitVec.toNat_and]
  apply Nat.lt_of_le_of_lt Nat.and_le_right
  decide

theorem ENVX_nextEnvId {e : Nat} (he : e < NENV) (envId : Word) :
  ENVX (nextEnvId e envId) = e
  := by
  have hlow : ∀ g : Word, g &&& 1023 = 0 → ((g ||| BitVec.ofNat 32 e) &&& 1023).toNat = e := by
    intro g hg
    have hand : (g ||| BitVec.ofNat 32 e) &&& 1023 = BitVec.ofNat 32 e &&& 1023 := by
      rw [BitVec.and_or_distrib_right, hg]
      exact BitVec.zero_or
    rw [hand, BitVec.toNat_and, BitVec.toNat_ofNat]
    have hmask : (1023 : Word).toNat = 2 ^ 10 - 1 := rfl
    rw [hmask, Nat.and_two_pow_sub_one_eq_mod]
    simp only [NENV] at he
    omega
  unfold ENVX nextEnvId
  apply hlow
  split
  · decide
  · rw [BitVec.and_assoc]
    have hzero : ~~~ (1023 : Word) &&& 1023 = 0 := by decide
    rw [hzero]
    exact BitVec.and_zero

/-- The registers a new environment starts with. -/
def initialTf : Trapframe :=
  { tfDs := GD_UD ||| 3
    tfEs := GD_UD ||| 3
    tfSs := GD_UD ||| 3
    tfEsp := BitVec.ofNat 32 USTACKTOP
    tfCs := GD_UT ||| 3
    tfEflags := FL_IF }

/-- Allocate and initialize a new environment of the given type. What follows `envs` is
not an environment, and the code must not use it as one. -/
def envAllocType (type : EnvType) (parentId : Word) : Prog Kernel (Except Word Nat) := do
  let s ← get
  match s.envFreeList with
  | none => pure (.error (-E_NO_FREE_ENV))
  | some e =>
      if e ≥ NENV then
        Prog.fault (KERNBASE + e)
      else
        let r ← envSetupVm e
        if isError r then
          pure (.error r)
        else
          modify (fun s => s.setEnv e { s.envs e with
            envId := nextEnvId e (s.envs e).envId
            envParentId := parentId
            envType := type
            envStatus := .ENV_RUNNABLE
            envRuns := 0
            envTf := initialTf
            envPgfaultUpcall := 0
            envIpcRecving := false })
          modify (fun s => { s with envFreeList := (s.envs e).envLink })
          pure (.ok e)

def envAlloc (parentId : Word) : Prog Kernel (Except Word Nat) :=
  envAllocType .ENV_TYPE_USER parentId

def envGuestAlloc (parentId : Word) : Prog Kernel (Except Word Nat) :=
  envAllocType .ENV_TYPE_GUEST parentId

/-! ### Freeing environments -/

/-- Unmap the pages of one page table. -/
def envFreeTable (pgdir pt pdeno : Nat) : Prog Kernel Unit :=
  Prog.forUp 0 NPTENTRIES (fun pteno => do
    let s ← get
    if s.entry pt pteno &&& PTE_P ≠ 0 then
      pageRemove pgdir (PGADDR pdeno pteno 0)
    else
      pure ())

/-- Free the page table of one directory entry with all it maps. -/
def envFreePde (pgdir pdeno : Nat) : Prog Kernel Unit := do
  let s ← get
  if s.entry pgdir pdeno &&& PTE_P = 0 then
    pure ()
  else
    let pa := PTE_ADDR (s.entry pgdir pdeno)
    let pt ← KADDR pa
    envFreeTable pgdir pt pdeno
    modify (fun s => s.setEntry pgdir pdeno 0)
    let pp ← pa2page pa
    pageDecref pp

/-- Free the environment `e` and all memory it uses. -/
def envFree (e : Nat) : Prog Kernel Unit := do
  let s ← get
  let pgdir ← Prog.orElse (s.envs e).envPgdir (Prog.fault 0)
  Prog.forUp 0 (PDX (BitVec.ofNat 32 UTOP)) (envFreePde pgdir)
  modify (fun s => s.setEnv e { s.envs e with envPgdir := none })
  let pp ← pa2page (page2pa pgdir)
  pageDecref pp
  modify (fun s => { s.setEnv e { s.envs e with
    envStatus := .ENV_FREE
    envLink := s.envFreeList } with envFreeList := some e })

/-! ### Running environments -/

/-- Switch to the environment `e` and leave the kernel. -/
def envRun {α : Type} (e : Nat) : Prog Kernel α := do
  let s ← get
  match s.curenv with
  | some cur =>
      if (s.envs cur).envStatus = .ENV_RUNNING then
        modify (fun s => s.setEnv cur { s.envs cur with envStatus := .ENV_RUNNABLE })
      else
        pure ()
  | none => pure ()
  modify (fun s => { s.setEnv e { s.envs e with
    envCpunum := 0
    envStatus := .ENV_RUNNING
    envRuns := (s.envs e).envRuns + 1 } with curenv := some e })
  let s ← get
  if (s.envs e).envPgdir = none then
    Prog.panic "PADDR called with invalid kva 00000000"
  else
    Prog.leave

/-- Report that there is nothing to wait for, and stay in the kernel monitor for good. -/
def noRunnable {α : Type} : Prog Kernel α :=
  Prog.panic "No runnable environments in the system!\n"

/-- Mark that no environment is running and wait for an interrupt, if there is an environment that
can run again. -/
def schedHalt {α : Type} : Prog Kernel α := do
  let s ← get
  if (List.range NENV).any (fun i => (s.envs i).envStatus = .ENV_RUNNABLE
      ∨ (s.envs i).envStatus = .ENV_RUNNING ∨ (s.envs i).envStatus = .ENV_DYING) then
    modify (fun s => { s with curenv := none })
    Prog.leave
  else
    noRunnable

/-- The index of the current environment, or `0`. -/
def curEnvx (s : Kernel) : Nat :=
  match s.curenv with
  | some cur => ENVX (s.envs cur).envId
  | none => 0

/-- Choose an environment to run, in circular order after the current one. -/
def schedYield {α : Type} : Prog Kernel α := do
  let s ← get
  let firstEid := (curEnvx s + 1) % NENV
  let next i := (firstEid + i) % NENV
  match (List.range NENV).find? (fun i =>
      (s.envs (next i)).envType ≠ .ENV_TYPE_IDLE
        ∧ (s.envs (next i)).envStatus = .ENV_RUNNABLE) with
  | some i => envRun (next i)
  | none =>
      match (List.range NENV).find? (fun i =>
          (s.envs (next i)).envType ≠ .ENV_TYPE_IDLE
            ∧ (s.envs (next i)).envStatus = .ENV_RUNNING
            ∧ (s.envs (next i)).envCpunum = 0) with
      | some i => envRun (next i)
      | none =>
          if (s.envs 0).envStatus = .ENV_RUNNABLE ∨ (s.envs 0).envStatus = .ENV_RUNNING then
            envRun 0
          else
            schedHalt

/-- Free the environment `e`, and run another one if it was the current environment. -/
def envDestroy (e : Nat) : Prog Kernel Unit := do
  let s ← get
  if (s.envs e).envStatus = .ENV_RUNNING ∧ s.curenv ≠ some e then
    modify (fun s => s.setEnv e { s.envs e with envStatus := .ENV_DYING })
  else
    envFree e
    let s ← get
    if s.curenv = some e then
      modify (fun s => { s with curenv := none })
      schedYield
    else
      pure ()

/-- Destroy the environment `e` unless it may access `[va, va + len)`. -/
def userMemAssert (e : Nat) (va len perm : Word) : Prog Kernel Unit := do
  let s ← get
  let pgdir ← Prog.orElse (s.envs e).envPgdir (Prog.fault 0)
  let r ← userMemCheck pgdir va len (perm ||| PTE_U ||| PTE_P)
  if isError r then
    envDestroy e
  else
    pure ()

end Jos
