import Jos.Kern.Pmap

/-!
# Access to linear addresses

How the processor translates a linear address with the page directory in force, for an
access by the kernel and for an access by an environment.  The kernel may read whatever
is mapped; since `CR0_WP` is set it may write only what is mapped writeable.  An access
that the processor refuses is a fault in the kernel.
-/

namespace Jos

open Bytes

namespace Kernel

/-- The two entries that translate `va`, if both are present. -/
def entries (s : Kernel) (pgdir : Nat) (va : Word) : Option (Word × Word) :=
  let pd := s.entry pgdir (PDX va)
  if present pd then
    let pt := s.entry (ptePage pd) (PTX va)
    if present pt then some (pd, pt) else none
  else
    none

/-- Whether both entries that translate `va` have all the flags `perm`. -/
def allows (s : Kernel) (pgdir : Nat) (perm : Word) (va : Word) : Bool :=
  match s.entries pgdir va with
  | some (pd, pt) => pd &&& perm = perm ∧ pt &&& perm = perm
  | none => false

/-- The physical address of `va`. -/
def translate (s : Kernel) (pgdir : Nat) (va : Word) : Option Nat :=
  match s.entries pgdir va with
  | some (_, pt) => some (ptePage pt * PGSIZE + PGOFF va)
  | none => none

/-- Whether an environment with this page directory may read at `va`. -/
def userReadable (s : Kernel) (pgdir : Nat) (va : Word) : Bool :=
  s.allows pgdir PTE_U va

/-- Whether an environment with this page directory may write at `va`. -/
def userWritable (s : Kernel) (pgdir : Nat) (va : Word) : Bool :=
  s.allows pgdir (PTE_U ||| PTE_W) va

end Kernel

/-- The page directory in force while the current environment is in the kernel. -/
def curPgdir : Prog Kernel Nat := do
  let e ← curenv
  let s ← get
  Prog.orElse (s.envs e).envPgdir (Prog.fault 0)

/-- Read the byte at `va` from the kernel. -/
def kernLoad (va : Word) : Prog Kernel Byte := do
  let pgdir ← curPgdir
  modify (fun s => { s with derefs := va :: s.derefs })
  let s ← get
  let pa ← Prog.orElse (s.translate pgdir va) (Prog.fault va.toNat)
  pure (s.mem pa)

/-- Write the byte at `va` from the kernel. -/
def kernStore (va : Word) (b : Byte) : Prog Kernel Unit := do
  let pgdir ← curPgdir
  modify (fun s => { s with derefs := va :: s.derefs })
  let s ← get
  if s.allows pgdir PTE_W va then
    let pa ← Prog.orElse (s.translate pgdir va) (Prog.fault va.toNat)
    modify (fun s => { s with mem := write8 s.mem pa b })
  else
    Prog.fault va.toNat

namespace Kernel

/-- The byte the kernel reads at `va` for the current environment. -/
def byteAt (s : Kernel) (va : Word) : Byte :=
  match s.curenv.bind (fun cur => (s.envs cur).envPgdir) with
  | some pgdir => (s.translate pgdir va).elim 0 s.mem
  | none => 0

/-- The word the kernel reads at `va`. -/
def wordAt (s : Kernel) (va : Word) : Word :=
  s.byteAt (va + 3) ++ s.byteAt (va + 2) ++ s.byteAt (va + 1) ++ s.byteAt va

/-- The `n` words the kernel reads from `va` on. -/
def wordsAt (s : Kernel) (va : Word) : Nat → List Word
  | 0 => []
  | n + 1 => s.wordAt va :: s.wordsAt (va + 4) n

end Kernel

/-- Read the word at `va` from the kernel. -/
def kernLoad32 (va : Word) : Prog Kernel Word := do
  let b0 ← kernLoad va
  let b1 ← kernLoad (va + 1)
  let b2 ← kernLoad (va + 2)
  let b3 ← kernLoad (va + 3)
  pure (b3 ++ b2 ++ b1 ++ b0)

/-- Write the word at `va` from the kernel. -/
def kernStore32 (va w : Word) : Prog Kernel Unit := do
  kernStore va (byteOf w 0)
  kernStore (va + 1) (byteOf w 1)
  kernStore (va + 2) (byteOf w 2)
  kernStore (va + 3) (byteOf w 3)

end Jos
