import Jos.Kern.Accounting
import Jos.Kern.UserMem

/-!
# Writing user memory

When the kernel writes to a page of an environment that is mapped writeable, the bytes
reach the page and nothing else changes.  When the page is not mapped writeable, the
kernel faults, since `CR0_WP` is set.
-/

namespace Jos

open Bytes Prog

variable {s s' s'' : Kernel}

/-! ### Addresses in a page -/

/-- Addresses of one page have the same indices. -/
theorem page_add {va : Word} {i : Nat} (h : PGOFF va + i < PGSIZE) :
  PDX (va + BitVec.ofNat 32 i) = PDX va ∧ PTX (va + BitVec.ofNat 32 i) = PTX va
    ∧ PGOFF (va + BitVec.ofNat 32 i) = PGOFF va + i
  := by
  have hlt := va.isLt
  simp only [PGOFF_eq, PGSIZE] at h ⊢
  have hadd : (va + BitVec.ofNat 32 i).toNat = va.toNat + i := by
    rw [BitVec.toNat_add, BitVec.toNat_ofNat]
    omega
  rw [PDX_eq, PDX_eq, PTX_eq, PTX_eq, hadd]
  omega

/-- `va` is translated by `pd` and `pt`, and what is written there leaves the paging
structures that are in force alone. -/
structure MapsTo (s : Kernel) (pg : Nat) (va : Word) (pd pt : Word) : Prop where
  entries : s.entries pg va = some (pd, pt)
  dir : ptePage pt ≠ pg
  table : ptePage pt ≠ ptePage pd

theorem MapsTo.translate {pg : Nat} {va pd pt : Word} (h : MapsTo s pg va pd pt) :
  s.translate pg va = some (ptePage pt * PGSIZE + PGOFF va)
  := by
  unfold Kernel.translate
  rw [h.entries]

/-- The words of the page directory and of the page table decide about a translation. -/
theorem entries_congr {pg : Nat} {va va' : Word} (hpdx : PDX va' = PDX va) (hptx : PTX va' = PTX va)
    (hdir : s'.entry pg (PDX va) = s.entry pg (PDX va))
    (htable : ∀ q, q = ptePage (s.entry pg (PDX va)) → s'.entry q (PTX va) = s.entry q (PTX va)) :
  s'.entries pg va' = s.entries pg va
  := by
  unfold Kernel.entries
  simp only
  rw [hpdx, hptx, hdir, htable _ rfl]

/-- Other addresses of the page are translated likewise. -/
theorem MapsTo.add {pg i : Nat} {va pd pt : Word} (h : MapsTo s pg va pd pt)
    (hi : PGOFF va + i < PGSIZE) :
  MapsTo s pg (va + BitVec.ofNat 32 i) pd pt
  := by
  obtain ⟨hpdx, hptx, -⟩ := page_add hi
  exact ⟨(entries_congr hpdx hptx rfl (fun _ _ => rfl)).trans h.entries, h.dir, h.table⟩

/-- The first entry of a translation is that of the page directory. -/
theorem entries_fst {pg : Nat} {va pd pt : Word} (h : s.entries pg va = some (pd, pt)) :
  s.entry pg (PDX va) = pd
  := by
  unfold Kernel.entries at h
  simp only at h
  split at h
  · split at h
    · exact congrArg Prod.fst (Option.some.inj h)
    · cases h
  · cases h

/-! ### Stores -/

/-- From `s` to `s'` only bytes of `[a, a + n)` were written on behalf of an environment. -/
structure Stored (a n : Nat) (s s' : Kernel) : Prop where
  quiet : s' = { s with mem := s'.mem, derefs := s'.derefs }
  mem : ∀ x, x < a ∨ a + n ≤ x → s'.mem x = s.mem x

namespace Stored

theorem refl (a n : Nat) (s : Kernel) :
  Stored a n s s
  := ⟨rfl, fun _ _ => rfl⟩

theorem trans {a n : Nat} (h : Stored a n s s') (h' : Stored a n s' s'') :
  Stored a n s s''
  := by
  constructor
  · rw [h'.quiet, h.quiet]
  · exact fun x hx => (h'.mem x hx).trans (h.mem x hx)

/-- A range may be widened. -/
theorem mono {a n b k : Nat} (h : Stored a n s s') (hlo : b ≤ a) (hhi : a + n ≤ b + k) :
  Stored b k s s'
  := by
  refine ⟨h.quiet, ?_⟩
  intro x hx
  apply h.mem x
  omega

theorem memOnly {a n : Nat} (h : Stored a n s s') :
  MemOnly s s'
  := by
  rw [h.quiet]
  exact ⟨rfl, rfl, rfl⟩

/-- Words of other pages are not changed. -/
theorem entry {p o n q i : Nat} (h : Stored (p * PGSIZE + o) n s s') (ho : o + n ≤ PGSIZE)
    (hq : q ≠ p) (hi : i < 1024) :
  s'.entry q i = s.entry q i
  := by
  apply read32_congr
  intro x hx hx'
  apply h.mem x
  simp only [PGSIZE] at hx hx' ho ⊢
  omega

/-- Translations are not changed. -/
theorem mapsTo {pg n : Nat} {va va' pd pt : Word} (h : Stored (ptePage pt * PGSIZE + PGOFF va) n s s')
    (hn : PGOFF va + n ≤ PGSIZE) (hm : MapsTo s pg va' pd pt) :
  MapsTo s' pg va' pd pt
  := by
  have hpd := entries_fst hm.entries
  refine ⟨?_, hm.dir, hm.table⟩
  refine (entries_congr rfl rfl ?_ ?_).trans hm.entries
  · exact h.entry hn hm.dir.symm (PDX_lt _)
  · intro q hq
    rw [hpd] at hq
    rw [hq]
    exact h.entry hn hm.table.symm (PTX_lt _)

end Stored

section Storing

variable {cur pg : Nat} (hcur : s.curenv = some cur) (hpg : (s.envs cur).envPgdir = some pg)
include hcur hpg

theorem kernStore_eq {va pd pt : Word} (hm : MapsTo s pg va pd pt) (hpd : pd &&& PTE_W = PTE_W)
    (hpt : pt &&& PTE_W = PTE_W) (b : Byte) :
  kernStore va b s = .ok ((), { s.accessed va with
    mem := write8 s.mem (ptePage pt * PGSIZE + PGOFF va) b })
  := by
  have hallow : (s.accessed va).allows pg PTE_W va = true := by
    change s.allows pg PTE_W va = true
    unfold Kernel.allows
    rw [hm.entries]
    simp only [hpd, hpt]
    decide
  have htrans : (s.accessed va).translate pg va = some (ptePage pt * PGSIZE + PGOFF va) :=
    hm.translate
  rw [kernStore, bind_of_eq (curPgdir_eq hcur hpg), modify_bind, get_bind]
  change (if (s.accessed va).allows pg PTE_W va = true then do
      let pa ← Prog.orElse ((s.accessed va).translate pg va) (fault va.toNat)
      modify (fun s => { s with mem := write8 s.mem pa b })
    else fault va.toNat) (s.accessed va) = _
  rw [if_pos hallow, htrans]
  rfl

/-- Writing what is not mapped writeable is a fault in the kernel. -/
theorem kernStore_fault {va : Word} (h : s.allows pg PTE_W va = false) (b : Byte) :
  kernStore va b s = .error (.fault va.toNat)
  := by
  have hallow : ¬ (s.accessed va).allows pg PTE_W va = true := by
    change ¬ s.allows pg PTE_W va = true
    rw [h]
    simp
  rw [kernStore, bind_of_eq (curPgdir_eq hcur hpg), modify_bind, get_bind]
  change (if (s.accessed va).allows pg PTE_W va = true then do
      let pa ← Prog.orElse ((s.accessed va).translate pg va) (fault va.toNat)
      modify (fun s => { s with mem := write8 s.mem pa b })
    else fault va.toNat) (s.accessed va) = _
  rw [if_neg hallow]
  rfl

/-- A byte is written to the page it lies in. -/
theorem kernStore_ok {va pd pt : Word} (hm : MapsTo s pg va pd pt) (hpd : pd &&& PTE_W = PTE_W)
    (hpt : pt &&& PTE_W = PTE_W) {i : Nat} (hi : PGOFF va + i < PGSIZE) (b : Byte) :
  ∃ s', kernStore (va + BitVec.ofNat 32 i) b s = .ok ((), s')
    ∧ Stored (ptePage pt * PGSIZE + PGOFF va + i) 1 s s'
    ∧ s'.mem (ptePage pt * PGSIZE + PGOFF va + i) = b
  := by
  obtain ⟨-, -, hoff⟩ := page_add hi
  have heq := kernStore_eq hcur hpg (hm.add hi) hpd hpt b
  rw [hoff, ← Nat.add_assoc] at heq
  refine ⟨_, heq, ⟨rfl, ?_⟩, ?_⟩
  · intro x hx
    simp only [write8]
    rw [if_neg (by omega)]
  · simp only [write8, if_true]

/-- A word is written to the page it lies in. -/
theorem kernStore32_ok {va pd pt : Word} (hm : MapsTo s pg va pd pt) (hpd : pd &&& PTE_W = PTE_W)
    (hpt : pt &&& PTE_W = PTE_W) (hoff : PGOFF va + 4 ≤ PGSIZE) (w : Word) :
  ∃ s', kernStore32 va w s = .ok ((), s')
    ∧ Stored (ptePage pt * PGSIZE + PGOFF va) 4 s s'
    ∧ read32 s'.mem (ptePage pt * PGSIZE + PGOFF va) = w
  := by
  obtain ⟨a, ha⟩ : ∃ a, a = ptePage pt * PGSIZE + PGOFF va := ⟨_, rfl⟩
  rw [← ha]
  -- each byte is written to a state like the first one
  have hstep : ∀ {t : Kernel} (i : Nat), Stored a 4 s t → i < 4 →
      ∃ t', kernStore (va + BitVec.ofNat 32 i) (byteOf w i) t = .ok ((), t') ∧ Stored a 4 s t'
        ∧ t'.mem (a + i) = byteOf w i ∧ ∀ j, j ≠ i → t'.mem (a + j) = t.mem (a + j) := by
    intro t i hst hi
    have hmt : MapsTo t pg va pd pt := by
      rw [ha] at hst
      exact hst.mapsTo hoff hm
    have hcurt : t.curenv = some cur := hst.memOnly.curenv.trans hcur
    have hpgt : (t.envs cur).envPgdir = some pg := by
      rw [hst.memOnly.envs]
      exact hpg
    obtain ⟨t', heq, hst', hmem⟩ :=
      kernStore_ok hcurt hpgt hmt hpd hpt (i := i) (by omega) (byteOf w i)
    rw [← ha] at hst' hmem
    refine ⟨t', heq, hst.trans (hst'.mono (by omega) (by omega)), hmem, ?_⟩
    intro j hj
    apply hst'.mem
    omega
  obtain ⟨s0, e0, h0, m0, -⟩ := hstep 0 (.refl a 4 s) (by decide)
  obtain ⟨s1, e1, h1, m1, k1⟩ := hstep 1 h0 (by decide)
  obtain ⟨s2, e2, h2, m2, k2⟩ := hstep 2 h1 (by decide)
  obtain ⟨s3, e3, h3, m3, k3⟩ := hstep 3 h2 (by decide)
  have hva : va + BitVec.ofNat 32 0 = va := by simp
  have hone : va + 1 = va + BitVec.ofNat 32 1 := rfl
  have htwo : va + 2 = va + BitVec.ofNat 32 2 := rfl
  have hthree : va + 3 = va + BitVec.ofNat 32 3 := rfl
  rw [hva] at e0
  refine ⟨s3, ?_, h3, ?_⟩
  · rw [kernStore32, bind_of_eq e0, hone, htwo, hthree, bind_of_eq e1, bind_of_eq e2]
    exact e3
  · apply read32_of_bytes
    intro i hi
    have hcases : i = 0 ∨ i = 1 ∨ i = 2 ∨ i = 3 := by omega
    rcases hcases with rfl | rfl | rfl | rfl
    · rw [k3 0 (by decide), k2 0 (by decide), k1 0 (by decide)]
      exact m0
    · rw [k3 1 (by decide), k2 1 (by decide)]
      exact m1
    · rw [k3 2 (by decide)]
      exact m2
    · exact m3

/-- Words are written to the page they lie in. -/
theorem kernStoreWords_ok {va pd pt : Word} (hm : MapsTo s pg va pd pt)
    (hpd : pd &&& PTE_W = PTE_W) (hpt : pt &&& PTE_W = PTE_W) {ws : List Word}
    (hoff : PGOFF va + 4 * ws.length ≤ PGSIZE) :
  ∃ s', kernStoreWords va ws s = .ok ((), s')
    ∧ Stored (ptePage pt * PGSIZE + PGOFF va) (4 * ws.length) s s'
    ∧ ∀ i (hi : i < ws.length), read32 s'.mem (ptePage pt * PGSIZE + PGOFF va + 4 * i) = ws[i]
  := by
  induction ws generalizing s va with
  | nil => exact ⟨s, rfl, .refl _ _ s, fun i hi => by cases hi⟩
  | cons w ws ih =>
      rw [List.length_cons] at hoff
      obtain ⟨s1, e1, h1, m1⟩ := kernStore32_ok hcur hpg hm hpd hpt (by omega) w
      by_cases hnil : ws = []
      · rw [hnil]
        refine ⟨s1, ?_, h1, ?_⟩
        · rw [kernStoreWords, bind_of_eq e1]
          rfl
        · intro i hi
          have hi0 : i = 0 := by
            simp only [List.length_cons, List.length_nil] at hi
            omega
          simp only [hi0, Nat.mul_zero, Nat.add_zero]
          exact m1
      have hpos : 0 < ws.length := List.length_pos_iff.mpr hnil
      have hin : PGOFF va + 4 < PGSIZE := by omega
      obtain ⟨-, -, hoff4⟩ := page_add hin
      have hva4 : va + 4 = va + BitVec.ofNat 32 4 := rfl
      have hcur1 : s1.curenv = some cur := h1.memOnly.curenv.trans hcur
      have hpg1 : (s1.envs cur).envPgdir = some pg := by
        rw [h1.memOnly.envs]
        exact hpg
      have hm1 : MapsTo s1 pg (va + BitVec.ofNat 32 4) pd pt :=
        h1.mapsTo (by omega) (hm.add hin)
      obtain ⟨s2, e2, h2, m2⟩ := ih hcur1 hpg1 hm1 (by rw [hoff4]; omega)
      rw [hoff4] at h2 m2
      refine ⟨s2, ?_, ?_, ?_⟩
      · rw [kernStoreWords, bind_of_eq e1, hva4]
        exact e2
      · rw [List.length_cons]
        apply Stored.trans
        · exact h1.mono (by omega) (by omega)
        · exact h2.mono (by omega) (by omega)
      · intro i hi
        cases i with
        | zero =>
            have hkeep : read32 s2.mem (ptePage pt * PGSIZE + PGOFF va)
                = read32 s1.mem (ptePage pt * PGSIZE + PGOFF va) := by
              apply read32_congr
              intro x hx hx'
              apply h2.mem
              omega
            simp only [Nat.mul_zero, Nat.add_zero, List.getElem_cons_zero]
            rw [hkeep]
            exact m1
        | succ i =>
            have hm2 := m2 i (by simpa using hi)
            have haddr : ptePage pt * PGSIZE + (PGOFF va + 4) + 4 * i
                = ptePage pt * PGSIZE + PGOFF va + 4 * (i + 1) := by omega
            rw [haddr] at hm2
            exact hm2

end Storing

end Jos
