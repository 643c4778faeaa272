import Jos.Kern.Trap
import Jos.Lib.Frame

/-!
# Programs that leave the environments alone

The functions of `kern/pmap.c`, the accesses to user memory and the console change
neither the environments nor which of them is the current one.
-/

namespace Jos

open Bytes Prog

/-- The environments are the same. -/
structure MemOnly (s s' : Kernel) : Prop where
  envs : s'.envs = s.envs
  curenv : s'.curenv = s.curenv
  envFreeList : s'.envFreeList = s.envFreeList

theorem MemOnly.composes :
  Composes MemOnly
  := by
  constructor
  · intro s
    exact ⟨rfl, rfl, rfl⟩
  · intro s s' s'' h h'
    exact ⟨h'.envs.trans h.envs, h'.curenv.trans h.curenv, h'.envFreeList.trans h.envFreeList⟩

namespace MemOnly

variable {s s' : Kernel} {α β : Type}

theorem keeps_pure (a : α) :
  Keeps MemOnly (pure a : Prog Kernel α)
  := Prog.keeps_pure composes a

theorem keeps_bind {m : Prog Kernel α} {f : α → Prog Kernel β} (hm : Keeps MemOnly m)
    (hf : ∀ a, Keeps MemOnly (f a)) :
  Keeps MemOnly (m >>= f)
  := Prog.keeps_bind composes hm hf

theorem keeps_get {f : Kernel → Prog Kernel α} (hf : ∀ s, Keeps MemOnly (f s)) :
  Keeps MemOnly (get >>= f)
  := keeps_bind (Prog.keeps_get composes) hf

/-- A change that leaves the environments alone. -/
theorem keeps_modify {f : Kernel → Kernel} (h : ∀ s, (f s).envs = s.envs ∧
    (f s).curenv = s.curenv ∧ (f s).envFreeList = s.envFreeList) :
  Keeps MemOnly (modify f)
  := Prog.keeps_modify (fun s => ⟨(h s).1, (h s).2.1, (h s).2.2⟩)

/-! ### Pages -/

theorem KADDR (pa : Word) :
  Keeps MemOnly (KADDR pa)
  := keeps_get (fun _ => keeps_ite (keeps_panic _) (keeps_pure _))

theorem pa2page (pa : Word) :
  Keeps MemOnly (pa2page pa)
  := keeps_get (fun _ => keeps_ite (keeps_panic _) (keeps_pure _))

theorem pageAlloc :
  Keeps MemOnly pageAlloc
  := by
  apply keeps_get_bind
  intro s
  cases hl : s.pageFreeList with
  | none => exact mayEnd_pure _ |>.mpr (composes.refl s)
  | some p =>
      simp only
      rw [mayEnd_bind, mayEnd_set]
      have hrest : Keeps MemOnly (do
          let kva ← page2kva p
          modify (fun s => s.zeroPage kva)
          pure (some p) : Prog Kernel (Option Nat)) := by
        apply keeps_bind (KADDR _)
        intro kva
        apply keeps_bind
        · exact keeps_modify (fun s => ⟨rfl, rfl, rfl⟩)
        · exact fun _ => keeps_pure _
      exact hrest.after composes ⟨rfl, rfl, rfl⟩

theorem pageFree (pp : Nat) :
  Keeps MemOnly (pageFree pp)
  := by
  apply keeps_get_bind
  intro s
  rw [mayEnd_ite]
  constructor
  · exact fun _ => mayEnd_panic _
  · intro _
    rw [mayEnd_ite]
    constructor
    · exact fun _ => mayEnd_panic _
    · exact fun _ => mayEnd_set.mpr ⟨rfl, rfl, rfl⟩

theorem pageIncref (pp : Nat) :
  Keeps MemOnly (pageIncref pp)
  := keeps_modify (fun _ => ⟨rfl, rfl, rfl⟩)

theorem pageDecref (pp : Nat) :
  Keeps MemOnly (pageDecref pp)
  := by
  apply keeps_bind
  · exact keeps_modify (fun _ => ⟨rfl, rfl, rfl⟩)
  · exact fun _ => keeps_get (fun _ => keeps_ite (pageFree pp) (keeps_pure _))

theorem setEntry (p i : Nat) (w : Kernel → Word) :
  Keeps MemOnly (modify (fun s => s.setEntry p i (w s)))
  := keeps_modify (fun _ => ⟨rfl, rfl, rfl⟩)

theorem pgdirWalk (pgdir : Nat) (va : Word) (create : Bool) :
  Keeps MemOnly (pgdirWalk pgdir va create)
  := by
  apply keeps_get
  intro s
  apply keeps_ite
  · apply keeps_ite (keeps_pure _)
    apply keeps_bind pageAlloc
    intro pg
    cases pg with
    | none => exact keeps_pure _
    | some pg =>
        apply keeps_bind (pageIncref pg)
        intro _
        apply keeps_bind (setEntry _ _ _)
        exact fun _ => keeps_bind (KADDR _) (fun _ => keeps_pure _)
  · exact keeps_bind (KADDR _) (fun _ => keeps_pure _)

theorem pageLookup (pgdir : Nat) (va : Word) :
  Keeps MemOnly (pageLookup pgdir va)
  := by
  apply keeps_bind (pgdirWalk pgdir va false)
  intro pt
  cases pt with
  | none => exact keeps_pure _
  | some pt =>
      apply keeps_get
      intro s
      apply keeps_ite (keeps_pure _)
      exact keeps_bind (pa2page _) (fun _ => keeps_pure _)

theorem pageRemove (pgdir : Nat) (va : Word) :
  Keeps MemOnly (pageRemove pgdir va)
  := by
  apply keeps_bind (pageLookup pgdir va)
  intro r
  cases r with
  | none => exact keeps_pure _
  | some r =>
      apply keeps_bind (pageDecref _)
      exact fun _ => setEntry _ _ _

theorem pageInsert (pgdir pp : Nat) (va perm : Word) :
  Keeps MemOnly (pageInsert pgdir pp va perm)
  := by
  apply keeps_bind (pgdirWalk pgdir va true)
  intro pt
  cases pt with
  | none => exact keeps_pure _
  | some pt =>
      apply keeps_get
      intro s
      apply keeps_ite
      · apply keeps_bind (setEntry _ _ _)
        exact fun _ => keeps_bind (pageIncref _) (fun _ => keeps_pure _)
      · apply keeps_bind (pageIncref _)
        intro _
        apply keeps_bind (pageRemove _ _)
        intro _
        exact keeps_bind (setEntry _ _ _) (fun _ => keeps_pure _)

theorem checkByte (pgdir : Nat) (va perm : Word) (i : Nat) :
  Keeps MemOnly (checkByte pgdir va perm i)
  := by
  apply keeps_bind (pgdirWalk _ _ _)
  intro pte
  apply keeps_get
  intro s
  apply keeps_ite
  · apply keeps_bind
    · exact keeps_modify (fun _ => ⟨rfl, rfl, rfl⟩)
    · exact fun _ => keeps_pure _
  · exact keeps_pure _

theorem userMemCheck (pgdir : Nat) (va len perm : Word) :
  Keeps MemOnly (userMemCheck pgdir va len perm)
  := keeps_bind (keeps_findUp composes (checkByte pgdir va perm) _ _) (fun _ => keeps_pure _)

/-! ### User memory and the console -/

theorem curenv' :
  Keeps MemOnly Jos.curenv
  := keeps_get (fun _ => keeps_orElse composes _ (keeps_fault _))

theorem curPgdir :
  Keeps MemOnly curPgdir
  := keeps_bind curenv' (fun _ => keeps_get (fun _ => keeps_orElse composes _ (keeps_fault _)))

theorem envPgdirOf (e : Nat) :
  Keeps MemOnly (envPgdirOf e)
  := keeps_get (fun _ => keeps_orElse composes _ (keeps_fault _))

theorem kernLoad (va : Word) :
  Keeps MemOnly (kernLoad va)
  := by
  apply keeps_bind curPgdir
  intro pgdir
  apply keeps_bind
  · exact keeps_modify (fun _ => ⟨rfl, rfl, rfl⟩)
  · intro _
    apply keeps_get
    intro s
    exact keeps_bind (keeps_orElse composes _ (keeps_fault _)) (fun _ => keeps_pure _)

theorem kernStore (va : Word) (b : Byte) :
  Keeps MemOnly (kernStore va b)
  := by
  apply keeps_bind curPgdir
  intro pgdir
  apply keeps_bind
  · exact keeps_modify (fun _ => ⟨rfl, rfl, rfl⟩)
  · intro _
    apply keeps_get
    intro s
    apply keeps_ite
    · apply keeps_bind (keeps_orElse composes _ (keeps_fault _))
      exact fun _ => keeps_modify (fun _ => ⟨rfl, rfl, rfl⟩)
    · exact keeps_fault _

theorem kernStore32 (va w : Word) :
  Keeps MemOnly (kernStore32 va w)
  := keeps_bind (kernStore _ _) (fun _ => keeps_bind (kernStore _ _) (fun _ =>
    keeps_bind (kernStore _ _) (fun _ => kernStore _ _)))

theorem kernStoreWords (va : Word) (ws : List Word) :
  Keeps MemOnly (kernStoreWords va ws)
  := by
  induction ws generalizing va with
  | nil => exact keeps_pure ()
  | cons w ws ih => exact keeps_bind (kernStore32 va w) (fun _ => ih (va + 4))

theorem putString (fuel : Nat) (p : Word) (precision : Int) :
  Keeps MemOnly (putString fuel p precision)
  := by
  induction fuel generalizing p precision with
  | zero => exact keeps_pure ()
  | succ fuel ih =>
      have hput : ∀ ch, Keeps MemOnly (cputchar ch) :=
        fun _ => keeps_modify (fun _ => ⟨rfl, rfl, rfl⟩)
      apply keeps_bind (kernLoad p)
      intro ch
      apply keeps_ite (keeps_pure ())
      apply keeps_ite
      · exact keeps_bind (hput ch) (fun _ => ih (p + 1) precision)
      · apply keeps_ite
        · exact keeps_bind (hput ch) (fun _ => ih (p + 1) (precision - 1))
        · exact keeps_pure ()

theorem cprintfString (len s : Word) :
  Keeps MemOnly (cprintfString len s)
  := keeps_ite (keeps_modify (fun _ => ⟨rfl, rfl, rfl⟩)) (putString _ _ _)

theorem serialIntr :
  Keeps MemOnly serialIntr
  := keeps_modify (fun _ => ⟨rfl, rfl, rfl⟩)

theorem kbdIntr :
  Keeps MemOnly kbdIntr
  := keeps_modify (fun _ => ⟨rfl, rfl, rfl⟩)

theorem lapicEoi :
  Keeps MemOnly lapicEoi
  := keeps_modify (fun _ => ⟨rfl, rfl, rfl⟩)

theorem consGetc :
  Keeps MemOnly consGetc
  := by
  apply keeps_bind serialIntr
  intro _
  apply keeps_bind kbdIntr
  intro _
  apply keeps_get_bind
  intro s
  rw [mayEnd_ite]
  constructor
  · intro _
    simp only
    rw [mayEnd_bind, mayEnd_set, mayEnd_pure]
    exact ⟨rfl, rfl, rfl⟩
  · exact fun _ => mayEnd_pure _ |>.mpr (composes.refl s)

/-! ### Environments -/

theorem envid2env (envid : Word) (checkperm : Bool) :
  Keeps MemOnly (envid2env envid checkperm)
  := by
  apply keeps_ite
  · exact keeps_bind curenv' (fun _ => keeps_pure _)
  · apply keeps_get
    intro s
    apply keeps_ite (keeps_pure _)
    apply keeps_ite
    · apply keeps_bind curenv'
      exact fun _ => keeps_ite (keeps_pure _) (keeps_pure _)
    · exact keeps_pure _

theorem envFreePde (pgdir pdeno : Nat) :
  Keeps MemOnly (envFreePde pgdir pdeno)
  := by
  apply keeps_get
  intro s
  apply keeps_ite (keeps_pure ())
  apply keeps_bind (KADDR _)
  intro pt
  apply keeps_bind
  · apply keeps_forUp composes
    intro i
    apply keeps_get
    exact fun _ => keeps_ite (pageRemove _ _) (keeps_pure ())
  · intro _
    apply keeps_bind (setEntry _ _ _)
    exact fun _ => keeps_bind (pa2page _) (fun _ => pageDecref _)

end MemOnly

/-! ### What is read from user memory -/

/-- Only the record of accesses is different. -/
def Reads (s s' : Kernel) : Prop :=
  s' = { s with derefs := s'.derefs }

namespace Reads

variable {s s' s'' : Kernel}

theorem refl (s : Kernel) :
  Reads s s
  := rfl

theorem trans (h : Reads s s') (h' : Reads s' s'') :
  Reads s s''
  := by
  rw [Reads, h', h]

theorem memOnly (h : Reads s s') :
  MemOnly s s'
  := by
  rw [h]
  exact ⟨rfl, rfl, rfl⟩

theorem byteAt (h : Reads s s') (va : Word) :
  s'.byteAt va = s.byteAt va
  := by
  rw [h]
  rfl

theorem wordAt (h : Reads s s') (va : Word) :
  s'.wordAt va = s.wordAt va
  := by
  rw [h]
  rfl

theorem wordsAt (h : Reads s s') (va : Word) (n : Nat) :
  s'.wordsAt va n = s.wordsAt va n
  := by
  induction n generalizing va with
  | zero => rfl
  | succ n ih => rw [Kernel.wordsAt, Kernel.wordsAt, ih, h.wordAt]

end Reads

section Reading

variable {s : Kernel}

theorem kernLoad_reads (va : Word) :
  (kernLoad va).MayEnd s (fun b s' => Reads s s' ∧ b = s.byteAt va) (fun _ => False)
  := by
  rw [kernLoad, curPgdir, curenv, mayEnd_bind, mayEnd_bind, mayEnd_bind, mayEnd_get, mayEnd_orElse]
  refine ⟨?_, fun _ => mayEnd_fault _⟩
  intro cur hcur
  rw [mayEnd_bind, mayEnd_get, mayEnd_orElse]
  refine ⟨?_, fun _ => mayEnd_fault _⟩
  intro pgdir hpg
  rw [mayEnd_bind, mayEnd_modify, mayEnd_bind, mayEnd_get, mayEnd_bind, mayEnd_orElse]
  refine ⟨?_, fun _ => mayEnd_fault _⟩
  intro pa hpa
  rw [mayEnd_pure]
  refine ⟨rfl, ?_⟩
  have hpa' : s.translate pgdir va = some pa := hpa
  rw [Kernel.byteAt, hcur, Option.bind_some, hpg]
  simp only [hpa', Option.elim_some]

theorem kernLoad32_reads (va : Word) :
  (kernLoad32 va).MayEnd s (fun w s' => Reads s s' ∧ w = s.wordAt va) (fun _ => False)
  := by
  rw [kernLoad32, mayEnd_bind]
  apply (kernLoad_reads va).mono _ (fun _ h => h)
  rintro b0 s0 ⟨h0, rfl⟩
  rw [mayEnd_bind]
  apply (kernLoad_reads (va + 1)).mono _ (fun _ h => h)
  rintro b1 s1 ⟨h1, rfl⟩
  rw [mayEnd_bind]
  apply (kernLoad_reads (va + 2)).mono _ (fun _ h => h)
  rintro b2 s2 ⟨h2, rfl⟩
  rw [mayEnd_bind]
  apply (kernLoad_reads (va + 3)).mono _ (fun _ h => h)
  rintro b3 s3 ⟨h3, rfl⟩
  rw [mayEnd_pure]
  have h01 := h0.trans h1
  have h02 := h01.trans h2
  refine ⟨h02.trans h3, ?_⟩
  rw [h0.byteAt, h01.byteAt, h02.byteAt, Kernel.wordAt]

theorem kernLoadWords_reads (va : Word) (n : Nat) :
  (kernLoadWords va n).MayEnd s (fun ws s' => Reads s s' ∧ ws = s.wordsAt va n) (fun _ => False)
  := by
  induction n generalizing s va with
  | zero => exact mayEnd_pure _ |>.mpr ⟨.refl s, rfl⟩
  | succ n ih =>
      rw [kernLoadWords, mayEnd_bind]
      apply (kernLoad32_reads va).mono _ (fun _ h => h)
      rintro w s1 ⟨h1, rfl⟩
      rw [mayEnd_bind]
      apply (ih (va + 4)).mono _ (fun _ h => h)
      rintro ws s2 ⟨h2, rfl⟩
      rw [mayEnd_pure]
      refine ⟨h1.trans h2, ?_⟩
      rw [h1.wordsAt, Kernel.wordsAt]

end Reading

end Jos
