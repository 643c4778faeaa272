import Jos.Kern.Syscall
import Jos.Lib.Chain
import Jos.Lib.Store
import Mathlib.Data.Fintype.Sigma
import Mathlib.Data.Fintype.Sum
import Mathlib.Tactic.DeriveFintype

/-!
# What refers to pages

The entries of page directories and page tables below `UTOP`, seen as the slots of a
reference-counted store: a live environment refers to its page directory, a directory
entry to a page table, and a page table entry to a page.  Environments own their
directories and page tables, so that no two slots share one, and a page table is never
mapped as a page.

`MemInv` says that the page allocator is balanced with respect to these slots.
-/

namespace Jos

open Bytes

/-- The number of directory entries below `UTOP`. -/
def NUPDE : Nat := 955

/-- The directory index of `UVPT`. -/
def UVPTX : Nat := 957

/-- The places that hold counted references to pages. -/
inductive Slot where
  /-- The directory of an environment. -/
  | dir (e : Fin NENV)
  /-- An entry of the directory of an environment. -/
  | table (e : Fin NENV) (d : Fin NUPDE)
  /-- An entry of a page table of an environment. -/
  | page (e : Fin NENV) (d : Fin NUPDE) (t : Fin NPTENTRIES)
  /-- An entry of the directory of the kernel. -/
  | kern (d : Fin NPDENTRIES)
  deriving DecidableEq, Fintype

/-- The slots that do not share what they refer to. -/
def Slot.Owns : Slot → Prop
  | dir _ => True
  | table _ _ => True
  | page _ _ _ => False
  | kern _ => True

-- Elaboration would otherwise evaluate the list of all slots.
attribute [irreducible] instFintypeSlot

/-- All slots. -/
def slots : Finset Slot := Finset.univ

theorem mem_slots (x : Slot) :
  x ∈ slots
  := Finset.mem_univ x

/-- The page a directory or table entry refers to. -/
def refOf (w : Word) : Option Nat :=
  if present w then some (ptePage w) else none

@[simp]
theorem refOf_zero :
  refOf 0 = none
  := by
  rw [refOf, present_zero]
  rfl

theorem refOf_eq_none {w : Word} :
  refOf w = none ↔ w &&& PTE_P = 0
  := by
  simp [refOf, present]

theorem refOf_eq_some {w : Word} {p : Nat} :
  refOf w = some p ↔ w &&& PTE_P ≠ 0 ∧ ptePage w = p
  := by
  simp [refOf, present]

/-- The entry made for a page refers to that page. -/
theorem refOf_mk {p : Nat} {perm : Word} (hp : p < 2 ^ 20) (h : perm.toNat < 4096) :
  refOf (page2pa p ||| perm ||| PTE_P) = some p
  := by
  rw [refOf, present_mk, ptePage_mk hp h]
  rfl

/-- The directory entry of a page table. -/
def tableEntry (p : Nat) : Word :=
  page2pa p ||| PTE_P ||| PTE_W ||| PTE_U

theorem refOf_tableEntry {p : Nat} (hp : p < 2 ^ 20) :
  refOf (tableEntry p) = some p
  := by
  rw [show tableEntry p = page2pa p ||| (PTE_W ||| PTE_U) ||| PTE_P by
    rw [tableEntry, BitVec.or_assoc, BitVec.or_assoc, BitVec.or_assoc, BitVec.or_comm PTE_P]]
  apply refOf_mk hp
  decide

namespace Kernel

/-- The page directory of the environment `e`, if it is live. -/
def pgdir (s : Kernel) (e : Nat) : Option Nat :=
  if (s.envs e).envStatus = .ENV_FREE then none else (s.envs e).envPgdir

/-- The `d`-th directory entry of the environment `e`. -/
def pde (s : Kernel) (e d : Nat) : Word :=
  match s.pgdir e with
  | some pg => s.entry pg d
  | none => 0

/-- The `t`-th entry of the `d`-th page table of the environment `e`. -/
def pte (s : Kernel) (e d t : Nat) : Word :=
  match refOf (s.pde e d) with
  | some pt => s.entry pt t
  | none => 0

/-- The page table entry of the environment `e` for the address `va`. -/
def pteAt (s : Kernel) (e : Nat) (va : Word) : Word :=
  s.pte e (PDX va) (PTX va)

/-- What a slot refers to. -/
def slotRef (s : Kernel) : Slot → Option Nat
  | .dir e => s.pgdir e
  | .table e d => refOf (s.pde e d)
  | .page e d t => refOf (s.pte e d t)
  | .kern d => if NUPDE ≤ d.val ∧ d.val ≠ UVPTX then refOf (s.entry s.kernPgdir d) else none

/-- The store of pages, with the free pages `l`, the pages `held` taken off the free list
and not yet counted, and the references `own` that the running code has. -/
def store (s : Kernel) (l : List Nat) (held : Finset Nat) (own : Nat → Nat) : Store Slot Nat where
  ref := s.slotRef
  count p := (s.pages p).ppRef
  free := l
  held := held
  own := own

/-- The number of references to the page `p` from the slots. -/
def refs (s : Kernel) (p : Nat) : Nat :=
  refCount slots s.slotRef p

/-- No page has more references than its counter can count. -/
def Fits (avail : Finset Nat) (own : Nat → Nat) (s : Kernel) : Prop :=
  ∀ p ∈ avail, s.refs p + own p ≤ 65535

/-- A page of the paging structures. -/
def IsTable (s : Kernel) (r : Nat) : Prop :=
  r = s.kernPgdir ∨ ∃ x, x.Owns ∧ s.slotRef x = some r

end Kernel

/-- The page allocator keeps the pages `avail`, of which `l` are free. -/
structure MemInv (avail held : Finset Nat) (own : Nat → Nat) (l : List Nat) (s : Kernel) :
    Prop where
  chain : Chain (fun p => (s.pages p).ppLink) s.pageFreeList l
  unlinked : ∀ p ∈ avail, p ∉ l → (s.pages p).ppLink = none
  balanced : (s.store l held own).Balanced slots avail Slot.Owns 65536
  avail_lt : ∀ p ∈ avail, p < s.npages
  npages_le : s.npages ≤ 2 ^ 20
  kern_notMem : s.kernPgdir ∉ avail

namespace Kernel

variable {s s' : Kernel}

/-! ### What the slots depend on -/

/-- The views of the paging structures depend on the environments and on the words of the
pages of the paging structures only. -/
structure SameTables (s s' : Kernel) : Prop where
  envs : s'.envs = s.envs
  kernPgdir : s'.kernPgdir = s.kernPgdir
  entry : ∀ r, s.IsTable r → ∀ i < 1024, s'.entry r i = s.entry r i

namespace SameTables

variable (h : SameTables s s')
include h

theorem pgdir (e : Nat) :
  s'.pgdir e = s.pgdir e
  := by
  rw [Kernel.pgdir, Kernel.pgdir, h.envs]

theorem pde (e : Fin NENV) {d : Nat} (hd : d < 1024) :
  s'.pde e d = s.pde e d
  := by
  rw [Kernel.pde, Kernel.pde, h.pgdir]
  cases hpg : s.pgdir e with
  | none => rfl
  | some pg =>
      apply h.entry pg _ d hd
      right
      use .dir e, trivial
      apply hpg

theorem pte (e : Fin NENV) (d : Fin NUPDE) {t : Nat} (ht : t < 1024) :
  s'.pte e d t = s.pte e d t
  := by
  have hd := d.isLt
  simp only [NUPDE] at hd
  rw [Kernel.pte, Kernel.pte, h.pde e (by omega)]
  cases hpt : refOf (s.pde e d) with
  | none => rfl
  | some pt =>
      apply h.entry pt _ t ht
      right
      use .table e d, trivial
      apply hpt

theorem slotRef :
  s'.slotRef = s.slotRef
  := by
  funext x
  cases x with
  | dir e => apply h.pgdir
  | table e d =>
      have hd := d.isLt
      simp only [NUPDE] at hd
      rw [Kernel.slotRef, Kernel.slotRef, h.pde e (by omega)]
  | page e d t =>
      rw [Kernel.slotRef, Kernel.slotRef, h.pte e d t.isLt]
  | kern d =>
      rw [Kernel.slotRef, Kernel.slotRef, h.kernPgdir, h.entry _ (Or.inl rfl) d d.isLt]

end SameTables

/-- The views do not depend on anything but the environments and the memory. -/
theorem SameTables.of_mem (henvs : s'.envs = s.envs) (hkern : s'.kernPgdir = s.kernPgdir)
    (hmem : s'.mem = s.mem) :
  SameTables s s'
  := by
  constructor
  case envs => apply henvs
  case kernPgdir => apply hkern
  case entry =>
    intro r _ i _
    rw [Kernel.entry, Kernel.entry, hmem]

theorem SameTables.zeroPage {p : Nat} (hp : ¬ s.IsTable p) :
  SameTables s (s.zeroPage p)
  := by
  constructor
  case envs => rfl
  case kernPgdir => rfl
  case entry =>
    intro r hr j hj
    apply entry_zeroPage_of_ne s hj
    rintro rfl
    apply hp hr

/-! ### Owners of paging structures -/

section Owners

variable {avail held : Finset Nat} {own : Nat → Nat} {l : List Nat}
  (h : MemInv avail held own l s)
include h

theorem mem_avail {x : Slot} {p : Nat} (hx : s.slotRef x = some p) :
  p ∈ avail
  := h.balanced.ref_avail x p hx

theorem lt_npages {x : Slot} {p : Nat} (hx : s.slotRef x = some p) :
  p < s.npages
  := h.avail_lt p (mem_avail h hx)

/-- What a slot refers to is not the directory of the kernel. -/
theorem ne_kernPgdir {x : Slot} {p : Nat} (hx : s.slotRef x = some p) :
  p ≠ s.kernPgdir
  := by
  rintro rfl
  apply h.kern_notMem (mem_avail h hx)

/-- Two slots one of which owns its page refer to different pages. -/
theorem ref_ne_of_owns {x y : Slot} {p q : Nat} (hx : s.slotRef x = some p) (ho : x.Owns)
    (hy : s.slotRef y = some q) (hyx : y ≠ x) :
  q ≠ p
  := by
  rintro rfl
  apply hyx (h.balanced.owned x y q ho hx hy)

/-- A page without references is no page of the paging structures. -/
theorem not_isTable {p : Nat} (hp : p ∈ avail) (h0 : s.refs p = 0) :
  ¬ s.IsTable p
  := by
  rintro (rfl | ⟨x, -, hx⟩)
  · apply h.kern_notMem hp
  · rw [refs, refCount.eq_zero_iff] at h0
    apply h0 x (mem_slots x) hx

/-- A held page is no page of the paging structures. -/
theorem not_isTable_of_held {p : Nat} (hp : p ∈ held) :
  ¬ s.IsTable p
  := by
  apply not_isTable h (h.balanced.held_avail p hp)
  have := h.balanced.held_total p hp
  rw [Store.total] at this
  simp only [Kernel.refs, Kernel.store] at this ⊢
  omega

/-! ### Changing an entry of a page table -/

section SetPte

variable {e : Fin NENV} {d : Fin NUPDE} {pt : Nat} (hpt : refOf (s.pde e d) = some pt)
include hpt

theorem setPte_pde (t : Fin NPTENTRIES) (w : Word) (e' : Fin NENV) {d' : Nat} (hd' : d' < 1024) :
  (s.setEntry pt t w).pde e' d' = s.pde e' d'
  := by
  rw [Kernel.pde, Kernel.pde]
  cases hpg : s.pgdir e' with
  | none =>
      rw [show (s.setEntry pt t w).pgdir e' = none from hpg]
  | some pg =>
      rw [show (s.setEntry pt t w).pgdir e' = some pg from hpg]
      apply entry_setEntry_of_ne s w t.isLt hd'
      left
      apply ref_ne_of_owns h (x := .table e d) (y := .dir e') hpt trivial hpg
      simp

theorem setPte_pte (t : Fin NPTENTRIES) (w : Word) (e' : Fin NENV) (d' : Fin NUPDE)
    (t' : Fin NPTENTRIES) :
  (s.setEntry pt t w).pte e' d' t' =
    if Slot.page e' d' t' = .page e d t then w else s.pte e' d' t'
  := by
  have hd' := d'.isLt
  simp only [NUPDE] at hd'
  rw [Kernel.pte, setPte_pde h hpt t w e' (by omega)]
  by_cases hed : Slot.table e' d' = .table e d
  · obtain ⟨rfl, rfl⟩ := Slot.table.inj hed
    rw [hpt, Kernel.pte, hpt]
    by_cases ht : t' = t
    · rw [ht, if_pos rfl]
      apply entry_setEntry
    · rw [if_neg (by simp [ht])]
      apply entry_setEntry_of_ne s w t.isLt t'.isLt
      right
      intro he
      apply ht (Fin.ext he)
  · rw [if_neg]
    · rw [Kernel.pte]
      cases hpt' : refOf (s.pde e' d') with
      | none => rfl
      | some pt' =>
          apply entry_setEntry_of_ne s w t.isLt t'.isLt
          left
          apply ref_ne_of_owns h (x := .table e d) (y := .table e' d') hpt trivial hpt' hed
    · intro he
      obtain ⟨rfl, rfl, rfl⟩ := Slot.page.inj he
      apply hed rfl

/-- Changing an entry of a page table changes what the entry refers to. -/
theorem setPte_slotRef (t : Fin NPTENTRIES) (w : Word) :
  (s.setEntry pt t w).slotRef = Function.update s.slotRef (.page e d t) (refOf w)
  := by
  funext x
  cases x with
  | dir e' => rw [Function.update_of_ne (by simp)]; rfl
  | table e' d' =>
      have hd' := d'.isLt
      simp only [NUPDE] at hd'
      rw [Function.update_of_ne (by simp), slotRef, slotRef, setPte_pde h hpt t w e' (by omega)]
  | page e' d' t' =>
      rw [slotRef, setPte_pte h hpt t w e' d' t']
      by_cases he : Slot.page e' d' t' = .page e d t
      · rw [if_pos he, he, Function.update_self]
      · rw [if_neg he, Function.update_of_ne he]
        rfl
  | kern d' =>
      rw [Function.update_of_ne (by simp), slotRef, slotRef,
        entry_setEntry_of_ne s w t.isLt d'.isLt]
      · rfl
      · left
        apply (ne_kernPgdir h (x := .table e d) hpt).symm

end SetPte

/-! ### Changing an entry of a page directory -/

section SetPde

variable {e : Fin NENV} {d : Fin NUPDE} {pg : Nat} (hpg : s.pgdir e = some pg)
include hpg

theorem setPde_pde (w : Word) (e' : Fin NENV) {d' : Nat} (hd' : d' < 1024) :
  (s.setEntry pg d w).pde e' d' = if e' = e ∧ d' = d then w else s.pde e' d'
  := by
  have hd := d.isLt
  simp only [NUPDE] at hd
  rw [Kernel.pde, Kernel.pde]
  by_cases he : e' = e
  · subst he
    rw [show (s.setEntry pg d w).pgdir e' = some pg from hpg, hpg]
    by_cases hdd : d' = d
    · rw [if_pos ⟨rfl, hdd⟩, hdd]
      apply entry_setEntry
    · rw [if_neg (by simp [hdd])]
      apply entry_setEntry_of_ne s w (by omega) hd'
      right
      apply hdd
  · rw [if_neg (by simp [he])]
    cases hpg' : s.pgdir e' with
    | none =>
        rw [show (s.setEntry pg d w).pgdir e' = none from hpg']
    | some pg' =>
        rw [show (s.setEntry pg d w).pgdir e' = some pg' from hpg']
        apply entry_setEntry_of_ne s w (by omega) hd'
        left
        apply ref_ne_of_owns h (x := .dir e) (y := .dir e') hpg trivial hpg'
        simp [he]

theorem setPde_pte_of_ne (w : Word) (e' : Fin NENV) (d' : Fin NUPDE) (t' : Fin NPTENTRIES)
    (hne : Slot.table e' d' ≠ .table e d) :
  (s.setEntry pg d w).pte e' d' t' = s.pte e' d' t'
  := by
  have hd := d.isLt
  have hd' := d'.isLt
  simp only [NUPDE] at hd hd'
  rw [Kernel.pte, setPde_pde h hpg w e' (by omega), if_neg, Kernel.pte]
  · cases hpt' : refOf (s.pde e' d') with
    | none => rfl
    | some pt' =>
        apply entry_setEntry_of_ne s w (by omega) t'.isLt
        left
        apply ref_ne_of_owns h (x := .dir e) (y := .table e' d') hpg trivial hpt'
        simp
  · rintro ⟨rfl, hdd⟩
    apply hne
    rw [Fin.ext hdd]

/-- An entry made in a directory for a cleared page that is not a page of the paging
structures is an empty page table. -/
theorem setPde_pte {p : Nat} (hp : ¬ s.IsTable p) (hzero : ∀ i < 1024, s.entry p i = 0)
    {w : Word} (hw : refOf w = some p) (t : Fin NPTENTRIES) :
  (s.setEntry pg d w).pte e d t = 0
  := by
  have hd := d.isLt
  simp only [NUPDE] at hd
  rw [Kernel.pte, setPde_pde h hpg w e (by omega), if_pos ⟨rfl, rfl⟩, hw]
  have hne : p ≠ pg := by
    rintro rfl
    apply hp
    right
    use .dir e, trivial
    apply hpg
  change (s.setEntry pg d w).entry p t = 0
  rw [entry_setEntry_of_ne s w (by omega) t.isLt (Or.inl hne)]
  apply hzero t t.isLt

/-- Changing an entry of a directory to one whose page table has no present entries, from
one whose page table had none, changes what the entry refers to. -/
theorem setPde_slotRef {w : Word} (hold : ∀ t : Fin NPTENTRIES, refOf (s.pte e d t) = none)
    (hnew : ∀ t : Fin NPTENTRIES, refOf ((s.setEntry pg d w).pte e d t) = none) :
  (s.setEntry pg d w).slotRef = Function.update s.slotRef (.table e d) (refOf w)
  := by
  have hd := d.isLt
  simp only [NUPDE] at hd
  funext x
  cases x with
  | dir e' => rw [Function.update_of_ne (by simp)]; rfl
  | table e' d' =>
      have hd' := d'.isLt
      simp only [NUPDE] at hd'
      rw [slotRef, setPde_pde h hpg w e' (by omega)]
      by_cases he : Slot.table e' d' = .table e d
      · obtain ⟨rfl, rfl⟩ := Slot.table.inj he
        rw [if_pos ⟨rfl, rfl⟩, Function.update_self]
      · rw [if_neg, Function.update_of_ne he]
        · rfl
        · rintro ⟨rfl, hdd⟩
          apply he
          rw [Fin.ext hdd]
  | page e' d' t' =>
      rw [Function.update_of_ne (by simp), slotRef, slotRef]
      by_cases he : Slot.table e' d' = .table e d
      · obtain ⟨rfl, rfl⟩ := Slot.table.inj he
        rw [hold t', hnew t']
      · rw [setPde_pte_of_ne h hpg w e' d' t' he]
  | kern d' =>
      rw [Function.update_of_ne (by simp), slotRef, slotRef,
        entry_setEntry_of_ne s w (by omega) d'.isLt]
      · rfl
      · left
        apply (ne_kernPgdir h (x := .dir e) hpg).symm

end SetPde

end Owners

end Kernel

end Jos
