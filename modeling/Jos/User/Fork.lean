import Jos.Kern.PageFault
import Jos.Lib.Zoom
import Jos.User.Dup

/-!
# Copy-on-write `fork`

`fork` of `lib/fork.c` maps the pages of its environment in a new one as well, and takes the
permission to write them away on both sides.  The handler `pgfault` copies such a page when it is
written to.  A `Family` is an environment with those that descend from it, all of which run the same
program; beside the world it has the upcalls that the kernel keeps.

The processor runs the handler in the middle of a write.  So a write is a program of its own here,
`write`, in which the handler runs if the page may not be written.  What the compiled code of `fork`
writes to its stack frame in between is an argument: the stack is one of the pages that are shared
while `fork` is running on it.
-/

namespace Jos

namespace User

open Bytes Prog View

def PTE_COW : Word := 0x800
def FEC_PR : Word := 0x1
def FEC_U : Word := 0x4

/-- Where a page is put together before it takes the place of another one. -/
def PFTEMP : Word := BitVec.ofNat 32 (Jos.UTEMP + PTSIZE - PGSIZE)

/-- Environments that run the same program. -/
structure Family where
  world : World
  /-- The upcalls for page faults, by the identifiers of the environments. -/
  upcall : Word → Word

/-- Where the program has its variable `_pgfault_handler` and its functions `_pgfault_upcall` and
`pgfault`. -/
structure Linked where
  handler : Word
  upcall : Word
  pgfault : Word

/-- What `fork` writes to its stack frame: between the two system calls of `duppage` for a page, and
before it goes on to the next page. -/
structure Frame where
  between : Nat → List (Word × Byte) := fun _ => []
  after : Nat → List (Word × Byte) := fun _ => []

/-! ### System calls -/

/-- What the program does in its environment. -/
def sys {α : Type} (m : Prog World α) : Prog Family α :=
  Prog.zoom Family.world (fun w f => { f with world := w }) m

/-- The environment that runs. -/
def sysGetenvid : Prog World Word := do
  let w ← get
  pure w.self

/-- `sys_exofork`. The new environment has no upcall. -/
def exofork : Prog Family Word := do
  let r ← sys sysExofork
  if isError r then
    pure r
  else
    modify (fun f => { f with upcall := Function.update f.upcall r 0 })
    pure r

/-- Set the upcall of an environment. -/
def sysEnvSetPgfaultUpcall (envid func : Word) : Prog Family Word := do
  let f ← get
  if (f.world.find envid).isNone then
    pure (-E_BAD_ENV)
  else if func = 0 then
    pure (-E_INVAL)
  else
    set { f with upcall := Function.update f.upcall (f.world.key envid) func }
    pure 0

/-! ### The handler -/

/-- Copy the `n` bytes at `src` to `dst`, where they do not overlap. -/
def memmoveUp (dst src : Word) (n : Nat) : Prog World Unit :=
  Prog.forUp 0 n (fun i => do
    let b ← load (off src i)
    store (off dst i) b)

/-- Give the environment a copy of its own of the page at `addr`. -/
def pgfault (addr err : Word) : Prog World Unit := do
  if err &&& FEC_WR = 0 then
    Prog.panic "Fault not caused by write"
  else
    let pte ← uvptFlags (ROUNDDOWN addr PAGE)
    if pte &&& PTE_COW = 0 then
      Prog.panic "Page not copy on write"
    else
      let addr := ROUNDDOWN addr PAGE
      let self ← sysGetenvid
      let r ← sysPageAlloc self PFTEMP (PTE_P ||| PTE_U ||| PTE_W)
      if isError r then
        Prog.panic "Page can't be allocated"
      else
        memmoveUp PFTEMP addr PGSIZE
        let r ← sysPageMap self PFTEMP self addr (PTE_P ||| PTE_U ||| PTE_W)
        if isError r then
          Prog.panic "Temp page can't be mapped"
        else
          let r ← sysPageUnmap self PFTEMP
          if isError r then
            Prog.panic "sys_page_unmap"
          else
            pure ()

variable (l : Linked)

/-- A page fault of the running environment. Without an upcall, or without an exception stack, it is
destroyed. -/
def pageFault (va err : Word) : Prog Family Unit := do
  let f ← get
  let e := f.world.self
  if f.upcall e = 0 ∨ (f.world.translate e (PTE_U ||| PTE_W) excStack).isNone then
    Prog.leave
  else
    let handler ← sys (load32 l.handler)
    if handler = l.pgfault then
      sys (pgfault va err)
    else
      Prog.fault handler.toNat

/-- Write a byte to `va`. If that is a fault, it is tried once more when the handler has returned. -/
def write (va : Word) (b : Byte) : Prog Family Unit := do
  let f ← get
  if (f.world.translate f.world.self (PTE_U ||| PTE_W) va).isNone then
    let present := if (f.world.entry f.world.self va).isSome then FEC_PR else 0
    pageFault l va (FEC_U ||| FEC_WR ||| present)
  sys (store va b)

/-- Write one byte after the other. -/
def writes : List (Word × Byte) → Prog Family Unit
  | [] => pure ()
  | (va, b) :: ws => do
      write l va b
      writes ws

/-- The bytes of the word `x` at `va`. -/
def wordBytes (va x : Word) : List (Word × Byte) :=
  [(va, byteOf x 0), (off va 1, byteOf x 1), (off va 2, byteOf x 2), (off va 3, byteOf x 3)]

/-! ### `fork` -/

/-- Have the page faults of the running environment handled by `pgfault`. -/
def setPgfaultHandler : Prog Family Unit := do
  let handler ← sys (load32 l.handler)
  if handler = 0 then
    let env ← sys sysGetenvid
    let r ← sys (sysPageAlloc env excStack (PTE_U ||| PTE_P ||| PTE_W))
    if isError r then
      Prog.panic "Page allocation failed\n"
    else
      let r ← sysEnvSetPgfaultUpcall env l.upcall
      if isError r then
        Prog.panic "Unable to register handler\n"
      else
        writes l (wordBytes l.handler l.pgfault)
  else
    writes l (wordBytes l.handler l.pgfault)

/-- The address of the page `pn`. -/
def pageVa (pn : Nat) : Word :=
  BitVec.ofNat 32 (pn * PGSIZE)

/-- Map the page `pn` in the environment `envid` as well. -/
def duppage (envid : Word) (pn : Nat) (between : List (Word × Byte)) : Prog Family Unit := do
  let va := pageVa pn
  let pte ← sys (uvptFlags va)
  if pte &&& PTE_W ≠ 0 ∨ pte &&& PTE_COW ≠ 0 then
    let self ← sys sysGetenvid
    let r ← sys (sysPageMap self va envid va (PTE_COW ||| PTE_P ||| PTE_U))
    if isError r then
      Prog.panic "Mapping failed"
    else
      writes l between
      let r ← sys (sysPageMap self va self va (PTE_COW ||| PTE_P ||| PTE_U))
      if isError r then
        Prog.panic "Can't set parent page perm"
      else
        pure ()
  else
    let self ← sys sysGetenvid
    let r ← sys (sysPageMap self va envid va (PTE_P ||| PTE_U))
    if isError r then
      Prog.panic "Can't map other page"
    else
      pure ()

/-- The body of the loop of `fork`. -/
def forkPage (child : Word) (frame : Frame) (pn : Nat) : Prog Family Unit := do
  let m ← sys (mapped (pageVa pn))
  if m ∧ pn * PGSIZE ≠ UXSTACKTOP - PGSIZE then
    duppage l child pn (frame.between pn)
  writes l (frame.after pn)

/-- What the new environment still needs to run. -/
def forkFinish (child : Word) : Prog Family Unit := do
  let r ← sys (sysPageAlloc child excStack (PTE_P ||| PTE_W ||| PTE_U))
  if isError r then
    Prog.panic "Can't allocate new page for exception stack"
  else
    let f ← get
    let r ← sysEnvSetPgfaultUpcall child (f.upcall f.world.self)
    if isError r then
      Prog.panic "Unable to set pg fault upcall"
    else
      let r ← sys (sysEnvSetStatus child 2)
      if isError r then
        Prog.panic "Unable to set status Runnable"
      else
        pure ()

/-- Create an environment with a copy of the memory. -/
def fork (frame : Frame) : Prog Family Word := do
  setPgfaultHandler l
  let child ← exofork
  if isError child then
    Prog.panic "Child not forkded"
  else
    Prog.forUp 0 (UTOP / PGSIZE) (forkPage l child frame)
    forkFinish child
    pure child

end User

end Jos
