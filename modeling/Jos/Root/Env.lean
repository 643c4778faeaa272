import Jos.Kern.Elf
import Jos.Kern.Env
import Jos.Root.Pmap

/-!
# Environments of the kernel in `kern/`

The functions of `kern/env.c` and `kern/sched.c` of the kernel at the root of the repository.
The code of `envid2env` and the computation of identifiers are those of the other kernel.  The
list of free environments ends properly here, and there is a loader that replaces the program of
the current environment.  The number of the processor is not recorded.

Guest environments have a record of their own, `env_extrainfo`, that is kept beside the kernel.
-/

namespace Jos

namespace Root

open Bytes

/-! ### Creating environments -/

/-- The `i`-th environment when it is marked as free. -/
def initEnv (i : Nat) (env : Env) : Env :=
  { env with
    envStatus := .ENV_FREE
    envId := 0
    envLink := some (i + 1) }

/-- Mark all environments as free and link them in order. -/
def envInit : Prog Kernel Unit := do
  Prog.forUp 0 NENV (fun i => modify (fun s => s.setEnv i (initEnv i (s.envs i))))
  modify (fun s => s.setEnv (NENV - 1) { s.envs (NENV - 1) with envLink := none })
  modify (fun s => { s with envFreeList := some 0 })

/-- Make a page directory for the environment `e`. -/
def envSetupVm (e : Nat) : Prog Kernel Word := do
  match ← pageAlloc ALLOC_ZERO with
  | none => pure (-E_NO_MEM)
  | some p =>
      pageIncref p
      let pgdir ← page2kva p
      modify (fun s => s.setEnv e { s.envs e with envPgdir := some pgdir })
      let first := PDX (BitVec.ofNat 32 UTOP)
      Prog.forUp first (NPDENTRIES - first)
        (fun i => modify (fun s => s.setEntry pgdir i (s.entry s.kernPgdir i)))
      modify (fun s => s.setEntry pgdir (PDX (BitVec.ofNat 32 UVPT))
        (page2pa pgdir ||| PTE_P ||| PTE_U))
      pure 0

/-- Allocate and initialize a new environment. -/
def envAlloc (parentId : Word) : Prog Kernel (Except Word Nat) := do
  let s ← get
  match s.envFreeList with
  | none => pure (.error (-E_NO_FREE_ENV))
  | some e =>
      let r ← envSetupVm e
      if isError r then
        pure (.error r)
      else
        modify (fun s => s.setEnv e { s.envs e with
          envId := nextEnvId e (s.envs e).envId
          envParentId := parentId
          envType := .ENV_TYPE_USER
          envStatus := .ENV_RUNNABLE
          envRuns := 0
          envTf := initialTf
          envPgfaultUpcall := 0
          envIpcRecving := false })
        modify (fun s => { s with envFreeList := (s.envs e).envLink })
        pure (.ok e)

/-! ### Loading programs -/

/-- Write the byte at `va` from the kernel while the directory `pgdir` is in force. -/
def kernStore (pgdir : Nat) (va : Word) (b : Byte) : Prog Kernel Unit := do
  let s ← get
  if s.allows pgdir PTE_W va then
    let pa ← Prog.orElse (s.translate pgdir va) (Prog.fault va.toNat)
    modify (fun s => { s with mem := write8 s.mem pa b })
  else
    Prog.fault va.toNat

/-- Write the word at `va`. -/
def kernStore32 (pgdir : Nat) (va w : Word) : Prog Kernel Unit := do
  kernStore pgdir va (byteOf w 0)
  kernStore pgdir (va + 1) (byteOf w 1)
  kernStore pgdir (va + 2) (byteOf w 2)
  kernStore pgdir (va + 3) (byteOf w 3)

/-- Copy `n` bytes of an image from `src` on to `dst`. -/
def memmove (pgdir : Nat) (dst : Word) (binary : Binary) (src n : Nat) : Prog Kernel Unit :=
  Prog.forUp 0 n (fun i => kernStore pgdir (dst + BitVec.ofNat 32 i) (binary (src + i)))

/-- Set `n` bytes from `dst` on. -/
def memset (pgdir : Nat) (dst : Word) (c : Byte) (n : Nat) : Prog Kernel Unit :=
  Prog.forUp 0 n (fun i => kernStore pgdir (dst + BitVec.ofNat 32 i) c)

/-- What the loop of `region_alloc` does for the address `va`. What `page_insert` returns is not
looked at. -/
def regionAllocAt (pgdir : Nat) (va : Word) : Prog Kernel Unit := do
  match ← pageAlloc 0 with
  | none => Prog.panic "Error happened in region alloc"
  | some p =>
      let _ ← pageInsert pgdir p va (PTE_W ||| PTE_U ||| PTE_P)
      pure ()

/-- Map pages at `[va, va + len)`. The loop counts signed addresses up by one. -/
def regionAlloc (pgdir : Nat) (va len : Word) : Prog Kernel Unit :=
  let init := BitVec.ofNat 32 (ROUNDDOWN va.toNat PGSIZE)
  let fin := BitVec.ofNat 32 (ROUNDUP (va + len).toNat PGSIZE)
  Prog.forUp 0 (fin.toInt - init.toInt).toNat
    (fun k => regionAllocAt pgdir (init + BitVec.ofNat 32 k))

/-- Load the `i`-th segment of an image. -/
def loadSegment (pgdir : Nat) (binary : Binary) (i : Nat) : Prog Kernel Unit :=
  if binary.pType i ≠ ELF_PROG_LOAD then
    pure ()
  else do
    regionAlloc pgdir (binary.pVa i) (binary.pMemsz i)
    memmove pgdir (binary.pVa i) binary (binary.pOffset i).toNat (binary.pFilesz i).toNat
    memset pgdir (binary.pVa i + binary.pFilesz i) 0 (binary.pMemsz i - binary.pFilesz i).toNat

/-- Load an image into the environment `e`, with its directory in force. -/
def loadIcode (e : Nat) (binary : Binary) : Prog Kernel Unit := do
  let s ← get
  let pgdir ← Prog.orElse (s.envs e).envPgdir (Prog.panic "PADDR called with invalid kva 00000000")
  Prog.forUp 0 binary.ePhnum (loadSegment pgdir binary)
  modify (fun s => s.setEnv e { s.envs e with
    envTf := { (s.envs e).envTf with tfEip := binary.eEntry } })
  regionAlloc pgdir (BitVec.ofNat 32 (USTACKTOP - PGSIZE)) (BitVec.ofNat 32 PGSIZE)

/-- Create an environment that runs an image. Whether there is one is not looked at. -/
def envCreate (binary : Binary) (type : EnvType) : Prog Kernel Unit := do
  match ← envAlloc 0 with
  | .error _ => Prog.fault 0
  | .ok e =>
      loadIcode e binary
      modify (fun s => s.setEnv e { s.envs e with envType := type, envParentId := 0 })

/-- Replace the program of the current environment, and push its arguments. -/
def envReplace (binary : Binary) (type : EnvType) (argc argobt : Word) : Prog Kernel Unit := do
  let cur ← curenv
  loadIcode cur binary
  let s ← get
  let ust := (s.envs cur).envTf.tfEsp - 8
  let pgdir ← curPgdir
  kernStore32 pgdir ust argc
  kernStore32 pgdir (ust + 4) argobt
  modify (fun s => s.setEnv cur { s.envs cur with
    envTf := { (s.envs cur).envTf with tfEsp := ust }
    envType := type })

/-! ### Freeing environments -/

/-- Unmap the pages of one page table. -/
def envFreeTable (pgdir pt pdeno : Nat) : Prog Kernel Unit :=
  Prog.forUp 0 NPTENTRIES (fun pteno => do
    let s ← get
    if s.entry pt pteno &&& PTE_P ≠ 0 then
      pageRemove pgdir (PGADDR pdeno pteno 0)
    else
      pure ())

/-- Free the page table of one directory entry with all it maps. -/
def envFreePde (pgdir pdeno : Nat) : Prog Kernel Unit := do
  let s ← get
  if s.entry pgdir pdeno &&& PTE_P = 0 then
    pure ()
  else
    let pa := PTE_ADDR (s.entry pgdir pdeno)
    let pt ← KADDR pa
    envFreeTable pgdir pt pdeno
    modify (fun s => s.setEntry pgdir pdeno 0)
    let pp ← pa2page pa
    pageDecref pp

/-- Free the environment `e` and all memory it uses. -/
def envFree (e : Nat) : Prog Kernel Unit := do
  let s ← get
  let pgdir ← Prog.orElse (s.envs e).envPgdir (Prog.fault 0)
  Prog.forUp 0 (PDX (BitVec.ofNat 32 UTOP)) (envFreePde pgdir)
  modify (fun s => s.setEnv e { s.envs e with envPgdir := none })
  let pp ← pa2page (page2pa pgdir)
  pageDecref pp
  modify (fun s => { s.setEnv e { s.envs e with
    envStatus := .ENV_FREE
    envLink := s.envFreeList } with envFreeList := some e })

/-! ### Running environments -/

/-- Whether the environment `e` is the current one, as `env_run` finds out. -/
def isCurrent (s : Kernel) (e : Nat) : Bool :=
  match s.curenv with
  | some cur => (s.envs cur).envId = (s.envs e).envId
  | none => false

/-- Run the environment `e`, to which the kernel switches unless it is the current one. -/
def envRun {α : Type} (e : Nat) : Prog Kernel α := do
  let s ← get
  if isCurrent s e then
    Prog.leave
  else
    match s.curenv with
    | some cur =>
        if (s.envs cur).envStatus = .ENV_RUNNING then
          modify (fun s => s.setEnv cur { s.envs cur with envStatus := .ENV_RUNNABLE })
        else
          pure ()
    | none => pure ()
    modify (fun s => { s.setEnv e { s.envs e with
      envStatus := .ENV_RUNNING
      envRuns := (s.envs e).envRuns + 1 } with curenv := some e })
    let s ← get
    if (s.envs e).envPgdir = none then
      Prog.panic "PADDR called with invalid kva 00000000"
    else
      Prog.leave

/-- Mark that no environment is running and wait for an interrupt. If there is nothing to wait
for, the kernel stays in its monitor for good. -/
def schedHalt {α : Type} : Prog Kernel α := do
  let s ← get
  if (List.range NENV).all (fun i => decide ((s.envs i).envStatus ≠ .ENV_RUNNABLE
      ∧ (s.envs i).envStatus ≠ .ENV_RUNNING ∧ (s.envs i).envStatus ≠ .ENV_DYING)) then
    Prog.panic "No runnable environments in the system!"
  else
    set ({ s with curenv := none } : Kernel)
    Prog.leave

/-- Choose an environment to run, in circular order after the current one. -/
def schedYield {α : Type} : Prog Kernel α := do
  let s ← get
  let id := (curEnvx s + 1) % NENV
  match (List.range NENV).find? (fun i => (s.envs ((id + i) % NENV)).envStatus = .ENV_RUNNABLE) with
  | some i => envRun ((id + i) % NENV)
  | none =>
      match s.curenv with
      | some cur =>
          if (s.envs cur).envStatus = .ENV_RUNNING then
            envRun cur
          else
            schedHalt
      | none => schedHalt

/-- Free the environment `e`, and run another one if it was the current environment. An
environment that runs on another processor is freed when it enters the kernel. -/
def envDestroy (e : Nat) : Prog Kernel Unit := do
  let s ← get
  if (s.envs e).envStatus = .ENV_RUNNING ∧ s.curenv ≠ some e then
    modify (fun s => s.setEnv e { s.envs e with envStatus := .ENV_DYING })
  else
    envFree e
    let s ← get
    if s.curenv = some e then
      modify (fun s => { s with curenv := none })
      schedYield
    else
      pure ()

/-- Destroy the environment `e` unless it may access `[va, va + len)`. -/
def userMemAssert (e : Nat) (va len perm : Word) : Prog Kernel Unit := do
  let s ← get
  let pgdir ← Prog.orElse (s.envs e).envPgdir (Prog.fault 0)
  let r ← userMemCheck pgdir va len (perm ||| PTE_U)
  if isError r then
    envDestroy e
  else
    pure ()

/-! ### Guest environments -/

/-- What is recorded of a guest. Pages for its I/O bitmaps are named by their numbers. -/
structure VMInfo where
  physicalsz : Word := 0
  ioBmapA : Option Nat := none
  ioBmapB : Option Nat := none
  deriving DecidableEq

/-- The kernel with the records of its guests. -/
structure Host where
  kernel : Kernel
  extrainfo : Nat → VMInfo := fun _ => {}

/-- A procedure of the kernel that does not look at the records of guests. -/
def onKernel {α : Type} (m : Prog Kernel α) : Prog Host α :=
  fun g => match m g.kernel with
    | .ok (a, s) => .ok (a, { g with kernel := s })
    | .error (.panic msg) => .error (.panic msg)
    | .error (.fault addr) => .error (.fault addr)
    | .error (.leave s) => .error (.leave { g with kernel := s })

/-- Change the record of the environment `e`. -/
def Host.setInfo (g : Host) (e : Nat) (info : VMInfo) : Host :=
  { g with extrainfo := Function.update g.extrainfo e info }

/-- Allocate a guest environment: a page for its page tables, and two pages for I/O bitmaps. -/
def envGuestAlloc (parentId : Word) : Prog Host (Except Word Nat) := do
  let g ← get
  match g.kernel.envFreeList with
  | none => pure (.error (-E_NO_FREE_ENV))
  | some e =>
      modify (fun g => g.setInfo e {})
      match ← onKernel (pageAlloc ALLOC_ZERO) with
      | none => pure (.error (-E_NO_MEM))
      | some p =>
          onKernel (modify (fun s => s.setPage p {}))
          onKernel (pageIncref p)
          let pgdir ← onKernel (page2kva p)
          onKernel (modify (fun s => s.setEnv e { s.envs e with envPgdir := some pgdir }))
          match ← onKernel (pageAlloc ALLOC_ZERO) with
          | none =>
              onKernel (pageDecref p)
              pure (.error (-E_NO_MEM))
          | some a =>
              onKernel (pageIncref a)
              let kva ← onKernel (page2kva a)
              modify (fun g => g.setInfo e { g.extrainfo e with ioBmapA := some kva })
              match ← onKernel (pageAlloc ALLOC_ZERO) with
              | none =>
                  onKernel (pageDecref p)
                  onKernel (pageDecref a)
                  pure (.error (-E_NO_MEM))
              | some b =>
                  onKernel (pageIncref b)
                  let kva ← onKernel (page2kva b)
                  modify (fun g => g.setInfo e { g.extrainfo e with ioBmapB := some kva })
                  onKernel (modify (fun s => s.setEnv e { s.envs e with
                    envId := nextEnvId e (s.envs e).envId
                    envParentId := parentId
                    envType := .ENV_TYPE_GUEST
                    envStatus := .ENV_RUNNABLE
                    envRuns := 0
                    envTf := {}
                    envPgfaultUpcall := 0
                    envIpcRecving := false }))
                  onKernel (modify (fun s => { s with envFreeList := (s.envs e).envLink }))
                  pure (.ok e)

end Root

end Jos
