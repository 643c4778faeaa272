import Jos.Kern.UserStore
import Jos.Root.Loading

/-!
# Writing the memory of an environment

The kernel loads a program by writing to the addresses of the environment, with the directory of
the environment in force.  Such a byte reaches a page that the environment may write to itself, or
the kernel faults: what is mapped below `UTOP` but read-only is not writable for the kernel either.
-/

namespace Jos

namespace Root

open Bytes Prog

variable {avail held : Finset Nat} {l : List Nat} {e : Fin NENV} {pg : Nat}
  {s s0 s' s'' : Kernel}

/-! ### What is written -/

/-- From `s` to `s'` only pages that the environment `e` may write to were written. -/
structure UserStored (e : Fin NENV) (s s' : Kernel) : Prop where
  quiet : s' = { s with mem := s'.mem }
  entry : ∀ q i, i < 1024 → s'.entry q i ≠ s.entry q i → WritableBy s e q

theorem UserStored.refl (e : Fin NENV) (s : Kernel) :
  UserStored e s s
  := ⟨rfl, fun _ _ _ hne => (hne rfl).elim⟩

/-- What an environment may write to is none of the paging structures. -/
theorem not_isTable_of_writable (h : MemInv avail held (fun _ => 0) l s) {q : Nat}
    (hq : WritableBy s e q) :
  ¬ s.IsTable q
  := by
  obtain ⟨a, -, ha, -⟩ := hq
  apply h.not_isTable_of_shareable
  exact Or.inr ⟨pageSlot a, id, ha⟩

namespace UserStored

variable (h : UserStored e s s')
include h

/-- The paging structures stay as they are. -/
theorem sameTables (hm : MemInv avail held (fun _ => 0) l s) :
  s.SameTables s'
  := by
  constructor
  case envs => rw [h.quiet]
  case kernPgdir => rw [h.quiet]
  case entry =>
    intro r hr i hi
    by_contra hne
    exact not_isTable_of_writable hm (h.entry r i hi hne) hr

theorem ptes (hm : MemInv avail held (fun _ => 0) l s) :
  s'.ptes = s.ptes
  := by
  funext a
  exact (h.sameTables hm).pte a.1 a.2.1 a.2.2.isLt

/-- The same pages may be written to. -/
theorem writableBy (hm : MemInv avail held (fun _ => 0) l s) {e' : Fin NENV} {q : Nat} :
  WritableBy s' e' q ↔ WritableBy s e' q
  := by
  rw [WritableBy, WritableBy, h.ptes hm]

theorem trans (hm : MemInv avail held (fun _ => 0) l s) (h' : UserStored e s' s'') :
  UserStored e s s''
  := by
  constructor
  case quiet => rw [h'.quiet, h.quiet]
  case entry =>
    intro q i hi hne
    by_cases heq : s'.entry q i = s.entry q i
    · rw [← heq] at hne
      exact (h.writableBy hm).mp (h'.entry q i hi hne)
    · exact h.entry q i hi heq

theorem wf (hs : Wf avail held s) :
  Wf avail held s'
  := by
  obtain ⟨l, hl⟩ := hs.mem
  have hq := h.quiet
  apply hs.sameTables (h.sameTables hl)
  · rw [hq]
  · rw [hq]
  · rw [hq]
  · rw [hq]

theorem fits (hm : MemInv avail held (fun _ => 0) l s) (hfits : Fits avail s) :
  Fits avail s'
  := fits_sameTables (h.sameTables hm) hfits

theorem hasFree {n : Nat} :
  HasFree n s' ↔ HasFree n s
  := by
  rw [HasFree, HasFree, h.quiet]

/-- Writing to the pages of the environment is part of loading. -/
theorem loaded (hs : Wf avail held s) (hl : Loaded avail e s0 s) :
  Loaded avail e s0 s'
  := by
  obtain ⟨l, hm⟩ := hs.mem
  have ht := h.sameTables hm
  have hptes := h.ptes hm
  have hgiven : ∀ {q}, Given avail e s0 s q → Given avail e s0 s' q := by
    intro q hq
    exact ⟨hq.avail, hq.alone, fun a ha => by
      rw [hptes]
      exact hq.gone a ha⟩
  constructor
  case quiet =>
    obtain ⟨eip, esp, type, hq⟩ := hl.quiet
    use eip, esp, type
    rw [h.quiet, hq]
  case upper =>
    intro e' d hd hd'
    rw [ht.pde e' hd', hl.upper e' d hd hd']
  case kern =>
    intro d hd
    have hk := ht.entry s.kernPgdir (Or.inl rfl) d hd
    rw [hl.kernPgdir] at hk
    rw [hk, hl.kern d hd]
  case pde =>
    intro e' he d hd
    rw [ht.pde e' hd, hl.pde e' he d hd]
  case pte =>
    intro a ha
    rw [hptes, hl.pte a ha]
  case fresh =>
    intro a
    rw [hptes]
    obtain heq | ⟨q, hq, hw, hg⟩ := hl.fresh a
    · exact Or.inl heq
    · exact Or.inr ⟨q, hq, hw, hgiven hg⟩
  case writable =>
    intro a ha
    rw [hptes]
    exact hl.writable a ha
  case tables =>
    intro d q hq
    rw [ht.slotRef] at hq
    exact hgiven (hl.tables d q hq)
  case changed =>
    intro q i hi hne
    by_cases heq : s'.entry q i = s.entry q i
    · rw [heq] at hne
      obtain hw | hg := hl.changed q i hi hne
      · exact Or.inl hw
      · exact Or.inr (hgiven hg)
    · obtain ⟨a, hae, ha, haw⟩ := h.entry q i hi heq
      obtain hsame | ⟨q', hq', -, hg⟩ := hl.fresh a
      · left
        use a, hae
        rw [← hsame]
        exact ⟨ha, haw⟩
      · right
        rw [ha] at hq'
        rw [Option.some.inj hq']
        exact hgiven hg

end UserStored

/-! ### One byte -/

/-- Writing a byte to a page changes no word of another page. -/
theorem entry_write8 (s : Kernel) {p o q i : Nat} (ho : o < PGSIZE) (hq : q ≠ p) (hi : i < 1024)
    (b : Byte) :
  ({ s with mem := write8 s.mem (p * PGSIZE + o) b } : Kernel).entry q i = s.entry q i
  := by
  apply read32_congr
  intro x hx hx'
  simp only [write8]
  rw [if_neg]
  simp only [PGSIZE] at ho hx hx' ⊢
  omega

section Byte

variable (hs : Wf avail held s) (hpg : s.pgdir e = some pg) {va : Word} (hva : va.toNat < UTOP)
include hs hpg hva

omit hs hva in
/-- What translates an address is the entry of the environment. -/
theorem pteAt_of_entries {pd pt : Word} (h : s.entries pg va = some (pd, pt)) :
  s.pteAt e va = pt ∧ refOf pt ≠ none
  := by
  have hpde : s.pde e (PDX va) = s.entry pg (PDX va) := by rw [Kernel.pde, hpg]
  unfold Kernel.entries at h
  simp only at h
  split at h
  case isTrue hpd =>
    split at h
    case isTrue hpt =>
      obtain ⟨-, rfl⟩ := Prod.mk.inj (Option.some.inj h)
      constructor
      · rw [Kernel.pteAt, Kernel.pte, hpde, refOf, if_pos hpd]
      · rw [refOf, if_pos hpt]
        simp
    case isFalse => cases h
  case isFalse => cases h

/-- Below `UTOP` the page table entry decides who may read and write. -/
theorem allows_iff_pteAt {perm : Word} (hperm : (PTE_W ||| PTE_U) &&& perm = perm) :
  s.allows pg perm va = true
    ↔ refOf (s.pteAt e va) ≠ none ∧ s.pteAt e va &&& perm = perm
  := by
  have hlive : (s.envs e).envStatus ≠ .ENV_FREE := by
    intro hfree
    rw [Kernel.pgdir, if_pos hfree] at hpg
    cases hpg
  have hpg' : (s.envs e).envPgdir = some pg := by
    rw [Kernel.pgdir, if_neg hlive] at hpg
    exact hpg
  unfold Kernel.allows
  cases hq : refOf (s.pteAt e va) with
  | none =>
      cases hent : s.entries pg va with
      | none => simp
      | some w =>
          obtain ⟨hpte, hne⟩ := pteAt_of_entries hpg hent
          rw [hpte] at hq
          exact (hne hq).elim
  | some q =>
      have htable : refOf (s.pde e (PDX va)) ≠ none := by
        intro hnone
        rw [Kernel.pteAt, Kernel.pte, hnone, refOf_zero] at hq
        cases hq
      have hflags : s.pde e (PDX va) &&& perm = perm := by
        have hboth := hs.user.table e ⟨PDX va, PDX_lt_of_lt_UTOP hva⟩ htable
        calc s.pde e (PDX va) &&& perm
            = s.pde e (PDX va) &&& (PTE_W ||| PTE_U) &&& perm := by
              rw [BitVec.and_assoc, hperm]
          _ = perm := by
              rw [hboth]
              exact hperm
      rw [entries_of_refOf hlive hpg' hq]
      simp [hflags]

/-- The kernel may write below `UTOP` what the environment may write. -/
theorem allows_iff :
  s.allows pg PTE_W va = true ↔ Writable (s.pteAt e va)
  := allows_iff_pteAt hs hpg hva (by decide)

/-- Where the environment may write, a byte is written to the page that is mapped. -/
theorem kernStore_eq {q : Nat} (hq : refOf (s.pteAt e va) = some q)
    (hw : s.pteAt e va &&& PTE_W = PTE_W) (b : Byte) :
  kernStore pg va b s = .ok ((), { s with mem := write8 s.mem (q * PGSIZE + PGOFF va) b })
  := by
  have hlive : (s.envs e).envStatus ≠ .ENV_FREE := by
    intro hfree
    rw [Kernel.pgdir, if_pos hfree] at hpg
    cases hpg
  have hpg' : (s.envs e).envPgdir = some pg := by
    rw [Kernel.pgdir, if_neg hlive] at hpg
    exact hpg
  have hwr : Writable (s.pteAt e va) := ⟨by rw [hq]; simp, hw⟩
  rw [kernStore, get_bind, if_pos ((allows_iff hs hpg hva).mpr hwr),
    translate_of_refOf hlive hpg' hq]
  rfl

/-- A byte is written where the environment may write. -/
theorem kernStore_ok (hw : Writable (s.pteAt e va)) (b : Byte) :
  ∃ s', kernStore pg va b s = .ok ((), s') ∧ UserStored e s s'
  := by
  obtain ⟨q, hq⟩ := Option.ne_none_iff_exists'.mp hw.1
  have hoff : PGOFF va < PGSIZE := PGOFF_lt va
  use { s with mem := write8 s.mem (q * PGSIZE + PGOFF va) b }
  constructor
  · exact kernStore_eq hs hpg hva hq hw.2 b
  · constructor
    case quiet => rfl
    case entry =>
      intro r i hi hne
      have hr : r = q := by
        by_contra hr
        exact hne (entry_write8 s hoff hr hi b)
      rw [hr]
      exact ⟨pteAddr e va hva, rfl, hq, hw.2⟩

/-- Writing where the environment may not write is a fault. -/
theorem kernStore_fault (hw : ¬ Writable (s.pteAt e va)) (b : Byte) :
  kernStore pg va b s = .error (.fault va.toNat)
  := by
  rw [← allows_iff hs hpg hva] at hw
  rw [kernStore, get_bind, if_neg hw]
  rfl

end Byte

end Root

end Jos
