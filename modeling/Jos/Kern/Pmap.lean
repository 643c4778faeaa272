import Jos.Kern.State

/-!
# Physical pages and page tables

The functions of `kern/pmap.c` that run after boot: the page allocator, the two-level
page table, and the checks of user memory.  Invalidating the translation buffer has no
effect on the state modelled here and is left out.
-/

namespace Jos

open Bytes

/-- The current environment. Going through a `NULL` `curenv` is an access to low memory. -/
def curenv : Prog Kernel Nat := do
  let s ← get
  Prog.orElse s.curenv (Prog.fault 0)

/-! ### Addresses of pages -/

/-- The page of a physical address that is mapped at `KERNBASE`. -/
def KADDR (pa : Word) : Prog Kernel Nat := do
  let s ← get
  if PGNUM pa ≥ s.npages then
    Prog.panic "KADDR called with invalid pa"
  else
    pure (PGNUM pa)

/-- The page structure of a physical address. -/
def pa2page (pa : Word) : Prog Kernel Nat := do
  let s ← get
  if PGNUM pa ≥ s.npages then
    Prog.panic "pa2page called with invalid pa"
  else
    pure (PGNUM pa)

/-- The page a page structure stands for, mapped at `KERNBASE`. -/
def page2kva (pp : Nat) : Prog Kernel Nat :=
  KADDR (page2pa pp)

/-! ### The page allocator -/

/-- Take a page off the free list and clear it. -/
def pageAlloc : Prog Kernel (Option Nat) := do
  let s ← get
  match s.pageFreeList with
  | some res =>
      let pp := s.pages res
      set ({ s with pageFreeList := pp.ppLink }.setPage res { pp with ppLink := none })
      let kva ← page2kva res
      modify (fun s => s.zeroPage kva)
      pure (some res)
  | none => pure none

/-- Return a page to the free list. -/
def pageFree (pp : Nat) : Prog Kernel Unit := do
  let s ← get
  if (s.pages pp).ppRef ≠ 0 then
    Prog.panic "Page still mapped\n"
  else if (s.pages pp).ppLink ≠ none then
    Prog.panic "Page already in the free list\n"
  else
    set { s.setPage pp { s.pages pp with ppLink := s.pageFreeList } with pageFreeList := some pp }

/-- Count one more reference to a page. The counter is a `uint16_t`. -/
def pageIncref (pp : Nat) : Prog Kernel Unit :=
  modify (fun s => s.setPage pp { s.pages pp with ppRef := ((s.pages pp).ppRef + 1) % 65536 })

/-- Count one reference less to a page, and free it if there are no more. -/
def pageDecref (pp : Nat) : Prog Kernel Unit := do
  modify (fun s => s.setPage pp { s.pages pp with ppRef := ((s.pages pp).ppRef + 65535) % 65536 })
  let s ← get
  if (s.pages pp).ppRef = 0 then
    pageFree pp
  else
    pure ()

/-! ### Page tables -/

/-- The page table entry of `va`, with a page table made on demand when `create` is set. -/
def pgdirWalk (pgdir : Nat) (va : Word) (create : Bool) : Prog Kernel (Option (Nat × Nat)) := do
  let s ← get
  let pd := s.entry pgdir (PDX va)
  if pd &&& PTE_P = 0 then
    if create = false then
      pure none
    else
      match ← pageAlloc with
      | some pg =>
          pageIncref pg
          modify (fun s => s.setEntry pgdir (PDX va) (page2pa pg ||| PTE_P ||| PTE_W ||| PTE_U))
          let pt ← KADDR (page2pa pg)
          pure (some (pt, PTX va))
      | none => pure none
  else
    let pt ← KADDR (PTE_ADDR pd)
    pure (some (pt, PTX va))

/-- The page mapped at `va` and its page table entry. -/
def pageLookup (pgdir : Nat) (va : Word) : Prog Kernel (Option (Nat × (Nat × Nat))) := do
  match ← pgdirWalk pgdir va false with
  | none => pure none
  | some pt =>
      let s ← get
      if s.entry pt.1 pt.2 &&& PTE_P = 0 then
        pure none
      else
        let pg ← pa2page (PTE_ADDR (s.entry pt.1 pt.2))
        pure (some (pg, pt))

/-- Unmap the page at `va`. -/
def pageRemove (pgdir : Nat) (va : Word) : Prog Kernel Unit := do
  match ← pageLookup pgdir va with
  | none => pure ()
  | some (pg, pstore) =>
      pageDecref pg
      modify (fun s => s.setEntry pstore.1 pstore.2 0)

/-- Map the page `pp` at `va` with permissions `perm`, in place of what is mapped there. -/
def pageInsert (pgdir : Nat) (pp : Nat) (va : Word) (perm : Word) : Prog Kernel Word := do
  match ← pgdirWalk pgdir va true with
  | none => pure (-E_NO_MEM)
  | some pt =>
      let s ← get
      if s.entry pt.1 pt.2 &&& PTE_P = 0 then
        modify (fun s => s.setEntry pt.1 pt.2 (page2pa pp ||| perm ||| PTE_P))
        pageIncref pp
        pure 0
      else
        pageIncref pp
        pageRemove pgdir va
        modify (fun s => s.setEntry pt.1 pt.2 (page2pa pp ||| perm ||| PTE_P))
        pure 0

/-! ### User memory -/

/-- What the loop of `user_mem_check` does for one address. -/
def checkByte (pgdir : Nat) (va perm : Word) (i : Nat) : Prog Kernel (Option Word) := do
  let a := va + BitVec.ofNat 32 i
  let pte ← pgdirWalk pgdir a false
  let s ← get
  let bad := match pte with
    | none => true
    | some pt => a.toNat ≥ ULIM || s.entry pt.1 pt.2 &&& perm = 0
  if bad then
    modify (fun s => { s with userMemCheckAddr := a })
    pure (some (-E_FAULT))
  else
    pure none

/-- Check each byte of `[va, va + len)` for permissions. -/
def userMemCheck (pgdir : Nat) (va len perm : Word) : Prog Kernel Word := do
  let r ← Prog.findUp 0 len.toNat (checkByte pgdir va perm)
  pure (r.getD 0)

end Jos
