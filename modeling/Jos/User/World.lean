import Jos.Kern.Syscall
import Jos.Lib.View
import Jos.User.Strings

/-!
# What a user program sees of the system

A program runs in one environment, and may change that environment and those it created.  Of the
rest of the system it sees answers only: whether there is memory for a page, which environment
was created, what the file server did.  A `World` holds the environments the program may change,
the pages they map, and the answers it is going to get.

Pages are named by the order in which they were handed out, so that a new page is one that
nobody maps.  An answer is a refusal if it is negative, as the results of system calls are.
-/

namespace Jos

namespace User

open Bytes View

/-! ### Worlds -/

/-- A page that is mapped, and the permissions it is mapped with. -/
structure Mapped where
  page : Nat
  perm : Word
  deriving DecidableEq

/-- An environment: the pages it maps, its saved registers and its status. -/
structure Proc where
  maps : Nat → Option Mapped := fun _ => none
  tf : Trapframe := {}
  status : EnvStatus := .ENV_NOT_RUNNABLE

/-- A file: its contents, and what is read of it at an offset that is negative as an `off_t`. -/
structure File where
  data : List Byte
  small : data.length < 2 ^ 31
  below : Word → Nat → Except Word (List Byte)
  short : ∀ offset n bs, below offset n = .ok bs → bs.length ≤ n
  refused : ∀ offset n r, below offset n = .error r → isError r = true

/-- A file of which nothing is read at negative offsets. -/
def File.ofData (data : List Byte) (small : data.length < 2 ^ 31) : File where
  data := data
  small := small
  below := fun _ _ => .error (-E_INVAL)
  short := fun _ _ _ h => by cases h
  refused := by
    intro _ _ _ h
    cases h
    rfl

/-- What `file_read` reads of at most `n` bytes at an offset: what there is of the file, or an
error. -/
def File.read (f : File) (offset : Word) (n : Nat) : Except Word (List Byte) :=
  if offset.slt 0 then f.below offset n else .ok ((f.data.drop offset.toNat).take n)

structure World where
  /-- The identifier of the environment that runs. -/
  self : Word
  /-- The environments it may change, by their identifiers. -/
  procs : Word → Option Proc
  mem : Memory
  /-- The next page that will be handed out. -/
  next : Nat
  /-- The answers of the rest of the system, in the order in which they are asked for. -/
  fate : Nat → Word
  /-- The answers to the requests for a page table, in their order. -/
  tables : Nat → Word
  /-- The files, by their paths. -/
  disk : List Byte → File
  /-- The files the file server has open: each with the page of its `struct Fd`. -/
  files : Word → Option (File × Nat)

namespace World

/-- The identifier that an `envid_t` stands for: `0` is the current environment. -/
def key (w : World) (envid : Word) : Word :=
  if envid = 0 then w.self else envid

/-- The environment with an identifier, if there is one that the program may change. -/
def find (w : World) (envid : Word) : Option Proc :=
  w.procs (w.key envid)

/-- What the environment `e` maps at `va`. -/
def entry (w : World) (e va : Word) : Option Mapped :=
  (w.procs e).bind (fun p => p.maps (PGNUM va))

/-- The physical address of `va` in the environment `e`, if it is mapped with the permissions
`perm`. -/
def translate (w : World) (e perm va : Word) : Option Nat :=
  match w.entry e va with
  | some m => if m.perm &&& perm = perm then some (m.page * PGSIZE + PGOFF va) else none
  | none => none

/-- Change what the environment `e` maps at `va`. -/
def setEntry (w : World) (e va : Word) (m : Option Mapped) : World :=
  let p := (w.procs e).map (fun p => { p with maps := Function.update p.maps (PGNUM va) m })
  { w with procs := Function.update w.procs e p }

/-- Change the memory. -/
def setMem (w : World) (m : Memory) : World :=
  { w with mem := m }

/-- What is left once the next answer has been given. -/
def asked (w : World) : World :=
  { w with fate := fun k => w.fate (k + 1) }

/-- What is left once the next request for a page table has been answered. -/
def askedTable (w : World) : World :=
  { w with tables := fun k => w.tables (k + 1) }

/-- Hand out a cleared page, and map it at `va` in the environment `e`. -/
def alloc (w : World) (e va perm : Word) : World :=
  { (w.setEntry e va (some ⟨w.next, perm⟩)).setMem (fill w.mem (w.next * PGSIZE) PGSIZE 0) with
    next := w.next + 1 }

end World

/-! ### Accesses to memory -/

/-- Read the byte at `va`. -/
def load (va : Word) : Prog World Byte := do
  let w ← get
  let pa ← Prog.orElse (w.translate w.self PTE_U va) (Prog.fault va.toNat)
  pure (w.mem pa)

/-- Write the byte at `va`. -/
def store (va : Word) (b : Byte) : Prog World Unit := do
  let w ← get
  let pa ← Prog.orElse (w.translate w.self (PTE_U ||| PTE_W) va) (Prog.fault va.toNat)
  modify (fun w => w.setMem (write8 w.mem pa b))

/-- Read the word at `va`. -/
def load32 (va : Word) : Prog World Word := do
  let b0 ← load va
  let b1 ← load (off va 1)
  let b2 ← load (off va 2)
  let b3 ← load (off va 3)
  pure (b3 ++ b2 ++ b1 ++ b0)

/-- Write the word at `va`. -/
def store32 (va w : Word) : Prog World Unit := do
  store va (byteOf w 0)
  store (off va 1) (byteOf w 1)
  store (off va 2) (byteOf w 2)
  store (off va 3) (byteOf w 3)

/-! ### System calls -/

/-- The next answer of the rest of the system. -/
def request : Prog World Word := do
  let w ← get
  set w.asked
  pure (w.fate 0)

/-- The next answer to a request for a page table. -/
def requestTable : Prog World Word := do
  let w ← get
  set w.askedTable
  pure (w.tables 0)

/-- Map a new page at `va`. -/
def sysPageAlloc (envid va perm : Word) : Prog World Word := do
  if ¬ UserPageAddr va then
    pure (-E_INVAL)
  else if ¬ ProperPerm perm then
    pure (-E_INVAL)
  else
    let w ← get
    match w.find envid with
    | none => pure (-E_BAD_ENV)
    | some _ =>
        let a ← request
        if isError a then
          pure (-E_NO_MEM)
        else
          modify (fun w => w.alloc (w.key envid) va perm)
          pure 0

/-- Map the page at `srcva` in one environment at `dstva` in another one. Memory is needed where
a page table is missing, but no page table is missing where a page is mapped. -/
def sysPageMap (srcenvid srcva dstenvid dstva perm : Word) : Prog World Word := do
  let w ← get
  match w.find srcenvid with
  | none => pure (-E_BAD_ENV)
  | some _ =>
      match w.find dstenvid with
      | none => pure (-E_BAD_ENV)
      | some _ =>
          if ¬ UserPageAddr srcva ∨ ¬ UserPageAddr dstva then
            pure (-E_INVAL)
          else if ¬ ProperPerm perm then
            pure (-E_INVAL)
          else
            match w.entry (w.key srcenvid) srcva with
            | none => pure (-E_INVAL)
            | some m =>
                if perm &&& PTE_W ≠ 0 ∧ m.perm &&& PTE_W = 0 then
                  pure (-E_INVAL)
                else
                  let a ← requestTable
                  if isError a ∧ (w.entry (w.key dstenvid) dstva).isNone then
                    pure (-E_NO_MEM)
                  else
                    modify (fun w => w.setEntry (w.key dstenvid) dstva (some ⟨m.page, perm⟩))
                    pure 0

/-- Unmap the page at `va`. -/
def sysPageUnmap (envid va : Word) : Prog World Word := do
  if ¬ UserPageAddr va then
    pure (-E_INVAL)
  else
    let w ← get
    match w.find envid with
    | none => pure (-E_BAD_ENV)
    | some _ =>
        modify (fun w => w.setEntry (w.key envid) va none)
        pure 0

/-- Create an environment with the registers of the current one, which maps nothing. The answer
is its identifier. -/
def sysExofork : Prog World Word := do
  let a ← request
  let w ← get
  if isError a then
    pure a
  else if a = 0 ∨ (w.procs a).isSome then
    pure (-E_NO_FREE_ENV)
  else
    let tf := ((w.procs w.self).getD {}).tf
    let p : Proc := { tf := { tf with tfRegs := { tf.tfRegs with regEax := 0 } } }
    set { w with procs := Function.update w.procs a (some p) }
    pure a

/-- Destroy an environment. One that destroys itself does not go on. -/
def sysEnvDestroy (envid : Word) : Prog World Word := do
  let w ← get
  match w.find envid with
  | none => pure (-E_BAD_ENV)
  | some _ =>
      let e := w.key envid
      set { w with procs := Function.update w.procs e none }
      if e = w.self then
        Prog.leave
      else
        pure 0

/-- Set the registers of an environment. -/
def sysEnvSetTrapframe (envid : Word) (tf : Trapframe) : Prog World Word := do
  let w ← get
  match w.find envid with
  | none => pure (-E_BAD_ENV)
  | some p =>
      if tf.tfEip.toNat ≥ UTOP then
        pure (-1)
      else
        let p := { p with tf := { tf with tfEflags := tf.tfEflags ||| FL_IF } }
        set { w with procs := Function.update w.procs (w.key envid) (some p) }
        pure 0

/-- Set the status of an environment. -/
def sysEnvSetStatus (envid status : Word) : Prog World Word := do
  match statusOfWord status with
  | none => pure (-E_INVAL)
  | some st =>
      let w ← get
      match w.find envid with
      | none => pure (-E_BAD_ENV)
      | some p =>
          set { w with procs := Function.update w.procs (w.key envid) (some { p with status := st }) }
          pure 0

/-! ### Strings -/

/-- The length of the string at `s`. -/
def strlen (s : Word) : Prog World Word := do
  let n ← Prog.skipUp 0 ADDRESSES (fun i => do
    let ch ← load (off s i)
    pure (ch ≠ 0))
  pure (BitVec.ofNat 32 n)

/-- Copy the string at `src` to `dst`, byte after byte up to the zero byte. -/
def strcpy (dst src : Word) : Prog World Unit := do
  let _ ← Prog.skipUp 0 ADDRESSES (fun i => do
    let ch ← load (off src i)
    store (off dst i) ch
    pure (ch ≠ 0))
  pure ()

end User

end Jos
