import Jos.Kern.Access
import Jos.Lib.Follows

/-!
# Physical pages and page tables of the kernel in `kern/`

The functions of `kern/pmap.c` of the kernel at the root of the repository.  The data they work
on are those of the kernel in `Working/lab`, whose functions they resemble: `page_free` does not
check the page it is given, and `page_insert` adds the permissions of a page to the directory
entry too.

Invalidating the translation buffer has no effect on the state modelled here and is left out.
-/

namespace Jos

namespace Root

open Bytes

/-! ### The page allocator -/

def ALLOC_ZERO : Nat := 1

/-- Take a page off the free list, and clear it if any flag is set. -/
def pageAlloc (allocFlags : Nat) : Prog Kernel (Option Nat) := do
  let s ← get
  match s.pageFreeList with
  | none => pure none
  | some temp =>
      let pp := s.pages temp
      set ({ s with pageFreeList := pp.ppLink }.setPage temp { pp with ppLink := none })
      if allocFlags ≠ 0 then
        let kva ← page2kva temp
        modify (fun s => s.zeroPage kva)
      else
        pure ()
      pure (some temp)

/-- Put a page on the free list. -/
def pageFree (pp : Nat) : Prog Kernel Unit :=
  modify (fun s =>
    { s.setPage pp { s.pages pp with ppLink := s.pageFreeList } with pageFreeList := some pp })

/-- Count one reference less to a page, and free it if there are no more. -/
def pageDecref (pp : Nat) : Prog Kernel Unit := do
  modify (fun s => s.setPage pp { s.pages pp with ppRef := ((s.pages pp).ppRef + 65535) % 65536 })
  let s ← get
  if (s.pages pp).ppRef = 0 then
    pageFree pp
  else
    pure ()

/-! ### Page tables -/

/-- The page table entry of `va`, with a page table made on demand when `create` is set. -/
def pgdirWalk (pgdir : Nat) (va : Word) (create : Bool) : Prog Kernel (Option (Nat × Nat)) := do
  let s ← get
  let pde := s.entry pgdir (PDX va)
  if create = false ∧ pde &&& PTE_P = 0 then
    pure none
  else if create = true ∧ pde &&& PTE_P = 0 then
    match ← pageAlloc 1 with
    | none => pure none
    | some temp =>
        pageIncref temp
        let pde := page2pa temp ||| PTE_P ||| PTE_U ||| PTE_W
        modify (fun s => s.setEntry pgdir (PDX va) pde)
        let ans ← KADDR (PTE_ADDR pde)
        pure (some (ans, PTX va))
  else
    let ans ← KADDR (PTE_ADDR pde)
    pure (some (ans, PTX va))

/-- The page mapped at `va` and its page table entry. -/
def pageLookup (pgdir : Nat) (va : Word) : Prog Kernel (Option (Nat × (Nat × Nat))) := do
  match ← pgdirWalk pgdir va false with
  | none => pure none
  | some temp =>
      let s ← get
      if s.entry temp.1 temp.2 &&& PTE_P = 0 then
        pure none
      else
        let pg ← pa2page (PTE_ADDR (s.entry temp.1 temp.2))
        pure (some (pg, temp))

/-- Unmap the page at `va`. -/
def pageRemove (pgdir : Nat) (va : Word) : Prog Kernel Unit := do
  match ← pageLookup pgdir va with
  | none => pure ()
  | some (physpage, temp) =>
      pageDecref physpage
      modify (fun s => s.setEntry temp.1 temp.2 0)

/-- Map the page `pp` at `va` with permissions `perm`, in place of what is mapped there. -/
def pageInsert (pgdir : Nat) (pp : Nat) (va : Word) (perm : Word) : Prog Kernel Word := do
  match ← pgdirWalk pgdir va true with
  | none => pure (-E_NO_MEM)
  | some temp =>
      pageIncref pp
      let s ← get
      if s.entry temp.1 temp.2 &&& PTE_P ≠ 0 then
        pageRemove pgdir va
      else
        pure ()
      modify (fun s => s.setEntry temp.1 temp.2 (page2pa pp ||| PTE_P ||| perm))
      modify (fun s => s.setEntry pgdir (PDX va) (s.entry pgdir (PDX va) ||| perm))
      pure 0

/-! ### User memory -/

def ROUNDDOWN (a n : Nat) : Nat :=
  a - a % n

/-- Round up to a multiple of `n`, with 32 bits. -/
def ROUNDUP (a n : Nat) : Nat :=
  ROUNDDOWN ((a + n - 1) % 2 ^ 32) n

/-- What the loop of `user_mem_check` does for the page at `addr`. -/
def checkPage (pgdir : Nat) (va perm : Word) (addr : Nat) : Prog Kernel (Option Word) := do
  let pte ← pgdirWalk pgdir (BitVec.ofNat 32 addr) false
  let s ← get
  let bad := match pte with
    | none => true
    | some pt => addr ≥ ULIM || s.entry pt.1 pt.2 &&& perm ≠ perm
  if bad then
    modify (fun s => { s with
      userMemCheckAddr := if addr < va.toNat then va else BitVec.ofNat 32 addr })
    pure (some (-E_FAULT))
  else
    pure none

/-- Check each page of `[va, va + len)` for permissions. -/
def userMemCheck (pgdir : Nat) (va len perm : Word) : Prog Kernel Word := do
  let initaddr := ROUNDDOWN va.toNat PGSIZE
  let fin := ROUNDUP ((va + len).toNat) PGSIZE
  let r ← Prog.findUp 0 ((fin - initaddr) / PGSIZE) (fun i =>
    checkPage pgdir va (perm ||| PTE_P) (initaddr + i * PGSIZE))
  pure (r.getD 0)

end Root

end Jos
