import Jos.Kern.MemOnly
import Jos.Root.Trap

/-!
# Programs of the kernel in `kern/` that leave the environments alone

The functions of `kern/pmap.c`, the loader of segments and the stores of the kernel of the kernel
at the root of the repository change neither the environments nor which of them is the current one.
-/

namespace Jos

namespace Root

namespace MemOnly

open Bytes
open Prog (Keeps Composes keeps_ite keeps_panic keeps_fault keeps_forUp keeps_findUp keeps_orElse
  keeps_get_bind mayEnd_bind mayEnd_set mayEnd_pure)
open Jos.MemOnly (composes keeps_pure keeps_bind keeps_get keeps_modify setEntry)

variable {α : Type}

/-! ### Pages -/

theorem pageAlloc (allocFlags : Nat) :
  Keeps MemOnly (pageAlloc allocFlags)
  := by
  apply keeps_get_bind
  intro s
  cases hl : s.pageFreeList with
  | none => exact mayEnd_pure _ |>.mpr (composes.refl s)
  | some p =>
      simp only
      rw [mayEnd_bind, mayEnd_set]
      have hrest : Keeps MemOnly (if allocFlags ≠ 0 then do
            let kva ← page2kva p
            modify (fun s => s.zeroPage kva)
            pure (some p)
          else
            pure (some p) : Prog Kernel (Option Nat)) := by
        apply keeps_ite
        · apply keeps_bind (MemOnly.KADDR _)
          intro kva
          apply keeps_bind
          · exact keeps_modify (fun s => ⟨rfl, rfl, rfl⟩)
          · exact fun _ => keeps_pure _
        · exact keeps_pure _
      exact hrest.after composes ⟨rfl, rfl, rfl⟩

theorem pageFree (pp : Nat) :
  Keeps MemOnly (pageFree pp)
  := keeps_modify (fun _ => ⟨rfl, rfl, rfl⟩)

theorem pageDecref (pp : Nat) :
  Keeps MemOnly (pageDecref pp)
  := by
  apply keeps_bind
  · exact keeps_modify (fun _ => ⟨rfl, rfl, rfl⟩)
  · exact fun _ => keeps_get (fun _ => keeps_ite (pageFree pp) (keeps_pure _))

theorem pgdirWalk (pgdir : Nat) (va : Word) (create : Bool) :
  Keeps MemOnly (pgdirWalk pgdir va create)
  := by
  apply keeps_get
  intro s
  apply keeps_ite (keeps_pure _)
  apply keeps_ite
  · apply keeps_bind (pageAlloc 1)
    intro pg
    cases pg with
    | none => exact keeps_pure _
    | some pg =>
        apply keeps_bind (MemOnly.pageIncref pg)
        intro _
        apply keeps_bind (setEntry _ _ _)
        exact fun _ => keeps_bind (MemOnly.KADDR _) (fun _ => keeps_pure _)
  · exact keeps_bind (MemOnly.KADDR _) (fun _ => keeps_pure _)

theorem pageLookup (pgdir : Nat) (va : Word) :
  Keeps MemOnly (pageLookup pgdir va)
  := by
  apply keeps_bind (pgdirWalk pgdir va false)
  intro pt
  cases pt with
  | none => exact keeps_pure _
  | some pt =>
      apply keeps_get
      intro s
      apply keeps_ite (keeps_pure _)
      exact keeps_bind (MemOnly.pa2page _) (fun _ => keeps_pure _)

theorem pageRemove (pgdir : Nat) (va : Word) :
  Keeps MemOnly (pageRemove pgdir va)
  := by
  apply keeps_bind (pageLookup pgdir va)
  intro r
  cases r with
  | none => exact keeps_pure _
  | some r =>
      apply keeps_bind (pageDecref _)
      exact fun _ => setEntry _ _ _

theorem pageInsert (pgdir pp : Nat) (va perm : Word) :
  Keeps MemOnly (pageInsert pgdir pp va perm)
  := by
  apply keeps_bind (pgdirWalk pgdir va true)
  intro pt
  cases pt with
  | none => exact keeps_pure _
  | some pt =>
      have hset : Keeps MemOnly (do
          modify (fun s => s.setEntry pt.1 pt.2 (page2pa pp ||| PTE_P ||| perm))
          modify (fun s => s.setEntry pgdir (PDX va) (s.entry pgdir (PDX va) ||| perm))
          pure 0 : Prog Kernel Word) :=
        keeps_bind (setEntry _ _ _) (fun _ => keeps_bind (setEntry _ _ _) (fun _ => keeps_pure _))
      apply keeps_bind (MemOnly.pageIncref pp)
      intro _
      apply keeps_get
      intro s
      apply keeps_ite
      · exact keeps_bind (pageRemove _ _) (fun _ => hset)
      · exact hset

theorem checkPage (pgdir : Nat) (va perm : Word) (addr : Nat) :
  Keeps MemOnly (checkPage pgdir va perm addr)
  := by
  apply keeps_bind (pgdirWalk _ _ _)
  intro pte
  apply keeps_get
  intro s
  apply keeps_ite
  · apply keeps_bind
    · exact keeps_modify (fun _ => ⟨rfl, rfl, rfl⟩)
    · exact fun _ => keeps_pure _
  · exact keeps_pure _

theorem userMemCheck (pgdir : Nat) (va len perm : Word) :
  Keeps MemOnly (userMemCheck pgdir va len perm)
  := keeps_bind (keeps_findUp composes (fun _ => checkPage _ _ _ _) _ _) (fun _ => keeps_pure _)

/-! ### Stores and segments -/

theorem kernStore (pgdir : Nat) (va : Word) (b : Byte) :
  Keeps MemOnly (kernStore pgdir va b)
  := by
  apply keeps_get
  intro s
  apply keeps_ite
  · apply keeps_bind (keeps_orElse composes _ (keeps_fault _))
    exact fun _ => keeps_modify (fun _ => ⟨rfl, rfl, rfl⟩)
  · exact keeps_fault _

theorem kernStore32 (pgdir : Nat) (va w : Word) :
  Keeps MemOnly (kernStore32 pgdir va w)
  := keeps_bind (kernStore _ _ _) (fun _ => keeps_bind (kernStore _ _ _) (fun _ =>
    keeps_bind (kernStore _ _ _) (fun _ => kernStore _ _ _)))

theorem kernStoreWords (pgdir : Nat) (va : Word) (ws : List Word) :
  Keeps MemOnly (kernStoreWords pgdir va ws)
  := by
  induction ws generalizing va with
  | nil => exact keeps_pure ()
  | cons w ws ih => exact keeps_bind (kernStore32 pgdir va w) (fun _ => ih (va + 4))

theorem regionAlloc (pgdir : Nat) (va len : Word) :
  Keeps MemOnly (regionAlloc pgdir va len)
  := by
  apply keeps_forUp composes
  intro k
  apply keeps_bind (pageAlloc 0)
  intro pg
  cases pg with
  | none => exact keeps_panic _
  | some p => exact keeps_bind (pageInsert _ _ _ _) (fun _ => keeps_pure ())

theorem loadSegment (pgdir : Nat) (binary : Binary) (i : Nat) :
  Keeps MemOnly (loadSegment pgdir binary i)
  := by
  apply keeps_ite (keeps_pure ())
  apply keeps_bind (regionAlloc _ _ _)
  intro _
  apply keeps_bind
  · exact keeps_forUp composes (fun _ => kernStore _ _ _) _ _
  · exact fun _ => keeps_forUp composes (fun _ => kernStore _ _ _) _ _

theorem envFreePde (pgdir pdeno : Nat) :
  Keeps MemOnly (envFreePde pgdir pdeno)
  := by
  apply keeps_get
  intro s
  apply keeps_ite (keeps_pure ())
  apply keeps_bind (MemOnly.KADDR _)
  intro pt
  apply keeps_bind
  · apply keeps_forUp composes
    intro i
    apply keeps_get
    exact fun _ => keeps_ite (pageRemove _ _) (keeps_pure ())
  · intro _
    apply keeps_bind (setEntry _ _ _)
    exact fun _ => keeps_bind (MemOnly.pa2page _) (fun _ => pageDecref _)

/-! ### System calls for pages -/

theorem sysPageAlloc (envid va perm : Word) :
  Keeps MemOnly (sysPageAlloc envid va perm)
  := by
  apply keeps_ite _ (keeps_pure _)
  apply keeps_ite _ (keeps_pure _)
  apply keeps_ite (keeps_pure _)
  apply keeps_bind (MemOnly.envid2env _ _)
  intro r
  cases r with
  | none => exact keeps_pure _
  | some env =>
      apply keeps_bind (pageAlloc _)
      intro pg
      cases pg with
      | none => exact keeps_pure _
      | some temp =>
          apply keeps_bind (MemOnly.envPgdirOf env)
          intro pgdir
          apply keeps_bind (pageInsert _ _ _ _)
          intro x
          apply keeps_ite
          · exact keeps_bind (pageFree _) (fun _ => keeps_pure _)
          · exact keeps_pure _

theorem sysPageMap (srcenvid srcva dstenvid dstva perm : Word) :
  Keeps MemOnly (sysPageMap srcenvid srcva dstenvid dstva perm)
  := by
  apply keeps_bind (MemOnly.envid2env _ _)
  intro r
  cases r with
  | none => exact keeps_pure _
  | some srcenv =>
      apply keeps_bind (MemOnly.envid2env _ _)
      intro r
      cases r with
      | none => exact keeps_pure _
      | some destenv =>
          apply keeps_ite (keeps_pure _)
          apply keeps_ite (keeps_pure _)
          apply keeps_ite (keeps_pure _)
          apply keeps_ite _ (keeps_pure _)
          apply keeps_bind (MemOnly.envPgdirOf _)
          intro srcpgdir
          apply keeps_bind (pageLookup _ _)
          intro r
          cases r with
          | none => exact keeps_pure _
          | some found =>
              apply keeps_get
              intro s
              apply keeps_ite (keeps_pure _)
              apply keeps_bind (MemOnly.envPgdirOf _)
              intro destpgdir
              apply keeps_bind (pageInsert _ _ _ _)
              exact fun x => keeps_ite (keeps_pure _) (keeps_pure _)

theorem sysPageUnmap (envid va : Word) :
  Keeps MemOnly (sysPageUnmap envid va)
  := by
  apply keeps_bind (MemOnly.envid2env _ _)
  intro r
  cases r with
  | none => exact keeps_pure _
  | some temp =>
      apply keeps_ite (keeps_pure _)
      apply keeps_bind (MemOnly.envPgdirOf _)
      intro pgdir
      exact keeps_bind (pageRemove _ _) (fun _ => keeps_pure _)

end MemOnly

end Root

end Jos
