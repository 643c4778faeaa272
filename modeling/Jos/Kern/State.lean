import Jos.Kern.Mmu
import Jos.Lib.Prog
import Mathlib.Logic.Function.Basic

/-!
# The state of the kernel

The data the kernel keeps: `struct PageInfo`, `struct Trapframe`, `struct Env`, the
physical memory that holds page directories, page tables and user pages, and the
global variables of `kern/pmap.c`, `kern/env.c` and `kern/console.c`.

A pointer into `pages` or `envs` is the index it points at, a `NULL` pointer is `none`.
A page directory is named by the physical page that holds it, and a `pte_t *` by the
page that holds the entry together with the index of the entry in that page.

`NCPU` is `1`, so `curenv` is one variable.
-/

namespace Jos

open Bytes

/-! ### Error codes -/

def E_BAD_ENV : Word := 2
def E_INVAL : Word := 3
def E_NO_MEM : Word := 4
def E_NO_FREE_ENV : Word := 5
def E_FAULT : Word := 6
def E_IPC_NOT_RECV : Word := 7

/-! ### Pages -/

/-- The next page on the free list, and the number of references to the page. -/
structure PageInfo where
  ppLink : Option Nat := none
  ppRef : Nat := 0
  deriving DecidableEq

/-! ### Saved registers -/

/-- Registers as pushed by `pusha`. -/
structure PushRegs where
  regEdi : Word := 0
  regEsi : Word := 0
  regEbp : Word := 0
  regOesp : Word := 0
  regEbx : Word := 0
  regEdx : Word := 0
  regEcx : Word := 0
  regEax : Word := 0
  deriving DecidableEq

/-- The registers saved when a trap is taken. -/
structure Trapframe where
  tfRegs : PushRegs := {}
  tfEs : BitVec 16 := 0
  tfPadding1 : BitVec 16 := 0
  tfDs : BitVec 16 := 0
  tfPadding2 : BitVec 16 := 0
  tfTrapno : Word := 0
  tfErr : Word := 0
  tfEip : Word := 0
  tfCs : BitVec 16 := 0
  tfPadding3 : BitVec 16 := 0
  tfEflags : Word := 0
  tfEsp : Word := 0
  tfSs : BitVec 16 := 0
  tfPadding4 : BitVec 16 := 0
  deriving DecidableEq

/-! ### Environments -/

def NENV : Nat := 1024
def ENVGENSHIFT : Nat := 12

/-- The index part of an environment identifier. -/
def ENVX (envid : Word) : Nat :=
  (envid &&& 1023).toNat

/-- Values of `env_status`. -/
inductive EnvStatus where
  | ENV_FREE
  | ENV_DYING
  | ENV_RUNNABLE
  | ENV_RUNNING
  | ENV_NOT_RUNNABLE
  deriving DecidableEq

/-- Special environment types. -/
inductive EnvType where
  | ENV_TYPE_USER
  | ENV_TYPE_IDLE
  | ENV_TYPE_FS
  | ENV_TYPE_GUEST
  deriving DecidableEq

/-- An environment. The defaults are those of zeroed memory. -/
structure Env where
  envTf : Trapframe := {}
  envLink : Option Nat := none
  envId : Word := 0
  envParentId : Word := 0
  envType : EnvType := .ENV_TYPE_USER
  envStatus : EnvStatus := .ENV_FREE
  envRuns : Word := 0
  envCpunum : Nat := 0
  envPgdir : Option Nat := none
  envPgfaultUpcall : Word := 0
  envIpcRecving : Bool := false
  envIpcDstva : Word := 0
  envIpcValue : Word := 0
  envIpcFrom : Word := 0
  envIpcPerm : Word := 0
  deriving DecidableEq

/-! ### The console input buffer -/

def CONSBUFSIZE : Nat := 512

/-- The circular buffer of characters received from the keyboard or serial port. -/
structure Cons where
  buf : Nat → Byte := fun _ => 0
  rpos : Nat := 0
  wpos : Nat := 0

/-! ### The kernel -/

/-- The state of the kernel. Its variables are kept beside physical memory. The pages that hold them
are never given away by the page allocator, and come within reach of an environment only when an
entry with bits of an address in its permissions was made, or when a counter of references has
wrapped around. Runs in which environments use memory exclude both. -/
structure Kernel where
  /-- Physical memory. -/
  mem : Memory := fun _ => 0
  npages : Nat
  pages : Nat → PageInfo := fun _ => {}
  pageFreeList : Option Nat := none
  kernPgdir : Nat
  envs : Nat → Env := fun _ => {}
  envFreeList : Option Nat := none
  curenv : Option Nat := none
  userMemCheckAddr : Word := 0
  cons : Cons := {}
  /-- What the serial port and the keyboard hold for the next poll. -/
  serial : List Byte := []
  keyboard : List Byte := []
  /-- What was sent to the console on behalf of an environment. -/
  console : List Byte := []
  /-- The user addresses the kernel has accessed on behalf of an environment. -/
  derefs : List Word := []
  /-- How many interrupts were acknowledged. -/
  eois : Nat := 0

namespace Kernel

/-- The `i`-th word of the page `p`. -/
def entry (s : Kernel) (p i : Nat) : Word :=
  read32 s.mem (p * PGSIZE + 4 * i)

/-- Set the `i`-th word of the page `p`. -/
def setEntry (s : Kernel) (p i : Nat) (w : Word) : Kernel :=
  { s with mem := write32 s.mem (p * PGSIZE + 4 * i) w }

/-- Clear the page `p`. -/
def zeroPage (s : Kernel) (p : Nat) : Kernel :=
  { s with mem := fill s.mem (p * PGSIZE) PGSIZE 0 }

/-- Change the `struct PageInfo` of the page `p`. -/
def setPage (s : Kernel) (p : Nat) (pp : PageInfo) : Kernel :=
  { s with pages := Function.update s.pages p pp }

/-- Change the environment `e`. -/
def setEnv (s : Kernel) (e : Nat) (env : Env) : Kernel :=
  { s with envs := Function.update s.envs e env }

variable (s : Kernel)

theorem setEnv_envs_self (e : Nat) (env : Env) :
  (s.setEnv e env).envs e = env
  := by simp only [setEnv, Function.update_self]

theorem setEnv_envs_of_ne {e e' : Nat} (env : Env) (h : e' ≠ e) :
  (s.setEnv e env).envs e' = s.envs e'
  := by simp only [setEnv, Function.update_of_ne h]

/-! ### Words of pages -/

theorem entry_setEntry {p i : Nat} (w : Word) :
  (s.setEntry p i w).entry p i = w
  := by
  apply read32_write32

theorem entry_setEntry_of_ne {p i q j : Nat} (w : Word) (hi : i < 1024) (hj : j < 1024)
    (h : q ≠ p ∨ j ≠ i) :
  (s.setEntry p i w).entry q j = s.entry q j
  := by
  apply read32_write32_of_disjoint
  simp only [PGSIZE]
  omega

theorem entry_zeroPage {p i : Nat} (hi : i < 1024) :
  (s.zeroPage p).entry p i = 0
  := by
  apply read32_fill_zero
  · omega
  · simp only [PGSIZE]
    omega

theorem entry_zeroPage_of_ne {p q i : Nat} (hi : i < 1024) (h : q ≠ p) :
  (s.zeroPage p).entry q i = s.entry q i
  := by
  apply read32_fill_of_disjoint
  simp only [PGSIZE]
  omega

end Kernel

end Jos
