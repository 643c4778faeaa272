import Jos.Kern.Envs
import Jos.Kern.MemOnly

/-!
# Reading user memory

When the kernel reads an address of the current environment that is mapped, it gets the
byte that is there, and nothing but the record of accesses changes.  When the address is
not mapped, the kernel faults.
-/

namespace Jos

open Bytes Prog

variable {s s' : Kernel}

/-- The kernel after an access to `va`. -/
def Kernel.accessed (s : Kernel) (va : Word) : Kernel :=
  { s with derefs := va :: s.derefs }

theorem Kernel.accessed_reads (s : Kernel) (va : Word) :
  Reads s (s.accessed va)
  := rfl

/-- From `s` to `s'` only addresses with `A` were read. -/
structure ReadsAt (A : Word → Prop) (s s' : Kernel) : Prop where
  reads : Reads s s'
  derefs : ∀ va ∈ s'.derefs, va ∈ s.derefs ∨ A va
  keeps : ∀ va ∈ s.derefs, va ∈ s'.derefs

theorem Reads.translate (h : Reads s s') (pg : Nat) (va : Word) :
  s'.translate pg va = s.translate pg va
  := by
  rw [h]
  rfl

namespace ReadsAt

variable {A B : Word → Prop} {s'' : Kernel}

theorem refl (s : Kernel) :
  ReadsAt A s s
  := ⟨.refl s, fun _ h => Or.inl h, fun _ h => h⟩

theorem trans (h : ReadsAt A s s') (h' : ReadsAt A s' s'') :
  ReadsAt A s s''
  := by
  refine ⟨h.reads.trans h'.reads, ?_, fun va hva => h'.keeps va (h.keeps va hva)⟩
  intro va hva
  obtain hva' | hA := h'.derefs va hva
  · exact h.derefs va hva'
  · exact Or.inr hA

theorem accessed {va : Word} (h : A va) :
  ReadsAt A s (s.accessed va)
  := by
  refine ⟨s.accessed_reads va, ?_, fun va' hva' => List.mem_cons_of_mem va hva'⟩
  intro va' hva'
  obtain rfl | hva' := List.mem_cons.mp hva'
  · exact Or.inr h
  · exact Or.inl hva'

end ReadsAt

/-! ### Translation -/

/-- The entries of a live environment translate an address that is mapped. -/
theorem entries_of_refOf {e pg p : Nat} {va : Word} (hlive : (s.envs e).envStatus ≠ .ENV_FREE)
    (hpg : (s.envs e).envPgdir = some pg) (hp : refOf (s.pteAt e va) = some p) :
  s.entries pg va = some (s.pde e (PDX va), s.pteAt e va)
  := by
  have hpde : s.entry pg (PDX va) = s.pde e (PDX va) := by
    rw [Kernel.pde, Kernel.pgdir, if_neg hlive, hpg]
  cases hpt : refOf (s.pde e (PDX va)) with
  | none =>
      rw [Kernel.pteAt, Kernel.pte, hpt, refOf_zero] at hp
      cases hp
  | some pt =>
      have hpte : s.pteAt e va = s.entry pt (PTX va) := by rw [Kernel.pteAt, Kernel.pte, hpt]
      obtain ⟨hpres, rfl⟩ := refOf_eq_some.mp hpt
      rw [hpte] at hp ⊢
      have hpres' := (refOf_eq_some.mp hp).1
      unfold Kernel.entries
      simp only
      rw [hpde]
      simp only [present]
      simpa using ⟨hpres, hpres'⟩

theorem translate_of_refOf {e pg p : Nat} {va : Word} (hlive : (s.envs e).envStatus ≠ .ENV_FREE)
    (hpg : (s.envs e).envPgdir = some pg) (hp : refOf (s.pteAt e va) = some p) :
  s.translate pg va = some (p * PGSIZE + PGOFF va)
  := by
  unfold Kernel.translate
  rw [entries_of_refOf hlive hpg hp]
  simp only
  rw [(refOf_eq_some.mp hp).2]

/-- What an environment may read is mapped. -/
theorem translate_of_readable {pg : Nat} {va : Word} (h : s.userReadable pg va) :
  s.translate pg va ≠ none
  := by
  unfold Kernel.userReadable Kernel.allows at h
  unfold Kernel.translate
  cases hent : s.entries pg va with
  | none =>
      rw [hent] at h
      cases h
  | some w => simp

/-! ### What was read -/

/-- The state after the addresses `vas` were read. -/
def Kernel.readAll (s : Kernel) (vas : List Word) : Kernel :=
  { s with derefs := vas.reverse ++ s.derefs }

theorem Kernel.readAll_append (s : Kernel) (vas vas' : List Word) :
  (s.readAll vas).readAll vas' = s.readAll (vas ++ vas')
  := by
  simp only [Kernel.readAll, List.reverse_append, List.append_assoc]

theorem Kernel.readAll_reads (s : Kernel) (vas : List Word) :
  Reads s (s.readAll vas)
  := rfl

/-- The addresses from `va` on. -/
def span (va : Word) (n : Nat) : List Word :=
  (List.range n).map (fun i => va + BitVec.ofNat 32 i)

theorem mem_span {va a : Word} {n : Nat} :
  a ∈ span va n ↔ ∃ i < n, a = va + BitVec.ofNat 32 i
  := by
  simp only [span, List.mem_map, List.mem_range]
  exact exists_congr (fun i => and_congr_right (fun _ => eq_comm))

theorem span_add (va : Word) (m n : Nat) :
  span va (m + n) = span va m ++ span (va + BitVec.ofNat 32 m) n
  := by
  simp only [span, List.range_add, List.map_append, List.map_map]
  congr 1
  apply List.map_congr_left
  intro i _
  simp only [Function.comp, BitVec.ofNat_add, BitVec.add_assoc]

/-- From `s` to `s'` the addresses `L` were read, and no others. -/
def Kernel.HasRead (L : Word → Prop) (s s' : Kernel) : Prop :=
  ∃ vas : List Word, s'.derefs = vas.reverse ++ s.derefs ∧ ∀ a, a ∈ vas ↔ L a

/-- From `s` to a state in which just `vas` was read besides. -/
theorem readAll_readsAt {A : Word → Prop} {vas : List Word} (h : ∀ a ∈ vas, A a) :
  ReadsAt A s (s.readAll vas)
  := by
  refine ⟨s.readAll_reads vas, ?_, ?_⟩
  · intro a ha
    obtain ha | ha := List.mem_append.mp ha
    · exact Or.inr (h a (List.mem_reverse.mp ha))
    · exact Or.inl ha
  · exact fun a ha => List.mem_append_right _ ha

/-! ### Reading -/

section Reading

variable {cur pg : Nat} (hcur : s.curenv = some cur) (hpg : (s.envs cur).envPgdir = some pg)
include hcur hpg

theorem kernLoad_eq {va : Word} (h : s.translate pg va ≠ none) :
  kernLoad va s = .ok (s.byteAt va, s.accessed va)
  := by
  obtain ⟨pa, hpa⟩ := Option.ne_none_iff_exists'.mp h
  have hbyte : s.byteAt va = s.mem pa := by
    rw [Kernel.byteAt, hcur, Option.bind_some, hpg]
    simp only [hpa, Option.elim_some]
  have hpa' : (s.accessed va).translate pg va = some pa := hpa
  rw [kernLoad, bind_of_eq (curPgdir_eq hcur hpg), modify_bind, get_bind, hbyte]
  change (Prog.orElse ((s.accessed va).translate pg va) (fault va.toNat)
    >>= fun pa => pure ((s.accessed va).mem pa)) (s.accessed va) = _
  rw [hpa']
  rfl

/-- Reading what is not mapped is a fault in the kernel. -/
theorem kernLoad_fault {va : Word} (h : s.translate pg va = none) :
  kernLoad va s = .error (.fault va.toNat)
  := by
  have hpa' : (s.accessed va).translate pg va = none := h
  rw [kernLoad, bind_of_eq (curPgdir_eq hcur hpg), modify_bind, get_bind]
  change (Prog.orElse ((s.accessed va).translate pg va) (fault va.toNat)
    >>= fun pa => pure ((s.accessed va).mem pa)) (s.accessed va) = _
  rw [hpa']
  rfl

/-- Reading a word reads its four bytes. -/
theorem kernLoad32_run (va : Word)
    (h : ∀ i < 4, s.translate pg (va + BitVec.ofNat 32 i) ≠ none) :
  kernLoad32 va s = .ok (s.wordAt va, s.readAll (span va 4))
  := by
  have hva : va + BitVec.ofNat 32 0 = va := BitVec.add_zero va
  have h0 := h 0 (by decide)
  rw [hva] at h0
  have r0 := s.accessed_reads va
  have r1 := r0.trans ((s.accessed va).accessed_reads (va + BitVec.ofNat 32 1))
  have r2 := r1.trans (Kernel.accessed_reads _ (va + BitVec.ofNat 32 2))
  have e0 := kernLoad_eq hcur hpg h0
  have e1 := kernLoad_eq (s := s.accessed va) hcur hpg (h 1 (by decide))
  have e2 := kernLoad_eq (s := (s.accessed va).accessed (va + BitVec.ofNat 32 1)) hcur hpg
    (h 2 (by decide))
  have e3 := kernLoad_eq (s := ((s.accessed va).accessed (va + BitVec.ofNat 32 1)).accessed
    (va + BitVec.ofNat 32 2)) hcur hpg (h 3 (by decide))
  rw [r0.byteAt] at e1
  rw [r1.byteAt] at e2
  rw [r2.byteAt] at e3
  have hone : va + 1 = va + BitVec.ofNat 32 1 := rfl
  have htwo : va + 2 = va + BitVec.ofNat 32 2 := rfl
  have hthree : va + 3 = va + BitVec.ofNat 32 3 := rfl
  have hspan : span va 4 = [va + BitVec.ofNat 32 0, va + BitVec.ofNat 32 1,
      va + BitVec.ofNat 32 2, va + BitVec.ofNat 32 3] := rfl
  rw [hva] at hspan
  rw [kernLoad32, bind_of_eq e0, hone, htwo, hthree, bind_of_eq e1, bind_of_eq e2, bind_of_eq e3,
    hspan]
  rfl

theorem kernLoad32_ok (va : Word) {A : Word → Prop}
    (h : ∀ i < 4, s.translate pg (va + BitVec.ofNat 32 i) ≠ none ∧ A (va + BitVec.ofNat 32 i)) :
  ∃ s', kernLoad32 va s = .ok (s.wordAt va, s') ∧ ReadsAt A s s'
    ∧ ∀ i < 4, va + BitVec.ofNat 32 i ∈ s'.derefs
  := by
  refine ⟨_, kernLoad32_run hcur hpg _ (fun i hi => (h i hi).1), ?_, ?_⟩
  · apply readAll_readsAt
    intro a ha
    obtain ⟨i, hi, rfl⟩ := mem_span.mp ha
    exact (h i hi).2
  · intro i hi
    exact List.mem_append_left _ (List.mem_reverse.mpr (mem_span.mpr ⟨i, hi, rfl⟩))

/-- Reading a word that is not mapped altogether is a fault in the kernel. -/
theorem kernLoad32_fault (va : Word)
    (h : ∃ i < 4, s.translate pg (va + BitVec.ofNat 32 i) = none) :
  ∃ addr, kernLoad32 va s = .error (.fault addr)
  := by
  have hva : va + BitVec.ofNat 32 0 = va := by simp
  have hone : va + 1 = va + BitVec.ofNat 32 1 := rfl
  have htwo : va + 2 = va + BitVec.ofNat 32 2 := rfl
  have hthree : va + 3 = va + BitVec.ofNat 32 3 := rfl
  have hfault : ∀ {f : Byte → Prog Kernel Word} {s : Kernel} {addr : Nat} {va : Word},
      kernLoad va s = .error (.fault addr) → (kernLoad va >>= f) s = .error (.fault addr) := by
    intro f s addr va heq
    simp only [bind, StateT.bind, Except.bind, heq]
  -- the first address that is not mapped
  rw [kernLoad32, hone, htwo, hthree]
  by_cases h0 : s.translate pg va = none
  · exact ⟨_, hfault (kernLoad_fault hcur hpg h0)⟩
  rw [bind_of_eq (kernLoad_eq hcur hpg h0)]
  by_cases h1 : s.translate pg (va + BitVec.ofNat 32 1) = none
  · exact ⟨_, hfault (kernLoad_fault (s := s.accessed va) hcur hpg h1)⟩
  rw [bind_of_eq (kernLoad_eq (s := s.accessed va) hcur hpg h1)]
  by_cases h2 : s.translate pg (va + BitVec.ofNat 32 2) = none
  · exact ⟨_, hfault (kernLoad_fault (s := (s.accessed va).accessed _) hcur hpg h2)⟩
  rw [bind_of_eq (kernLoad_eq (s := (s.accessed va).accessed _) hcur hpg h2)]
  by_cases h3 : s.translate pg (va + BitVec.ofNat 32 3) = none
  · exact ⟨_, hfault (kernLoad_fault (s := ((s.accessed va).accessed _).accessed _) hcur hpg h3)⟩
  exfalso
  obtain ⟨i, hi, hnone⟩ := h
  have hcases : i = 0 ∨ i = 1 ∨ i = 2 ∨ i = 3 := by omega
  rcases hcases with rfl | rfl | rfl | rfl
  · rw [hva] at hnone
    exact h0 hnone
  · exact h1 hnone
  · exact h2 hnone
  · exact h3 hnone

/-- Reading words reads their bytes. -/
theorem kernLoadWords_run (va : Word) (n : Nat)
    (h : ∀ i < 4 * n, s.translate pg (va + BitVec.ofNat 32 i) ≠ none) :
  kernLoadWords va n s = .ok (s.wordsAt va n, s.readAll (span va (4 * n)))
  := by
  induction n generalizing s va with
  | zero => rfl
  | succ n ih =>
      have hreads := s.readAll_reads (span va 4)
      have hnext : ∀ i, va + 4 + BitVec.ofNat 32 i = va + BitVec.ofNat 32 (4 + i) := by
        intro i
        rw [BitVec.ofNat_add, BitVec.add_assoc]
        rfl
      have heq1 := kernLoad32_run hcur hpg va (fun i hi => h i (by omega))
      have heq2 := ih (s := s.readAll (span va 4)) hcur hpg (va + 4) (by
        intro i hi
        rw [hreads.translate, hnext]
        exact h (4 + i) (by omega))
      rw [hreads.wordsAt, Kernel.readAll_append] at heq2
      have hfour : va + 4 = va + BitVec.ofNat 32 4 := rfl
      have hlen : 4 * (n + 1) = 4 + 4 * n := by omega
      rw [kernLoadWords, bind_of_eq heq1, bind_of_eq heq2, hlen, span_add, ← hfour]
      rfl

/-- Reading words that are not mapped altogether is a fault in the kernel. -/
theorem kernLoadWords_fault (va : Word) (n : Nat)
    (h : ∃ i < 4 * n, s.translate pg (va + BitVec.ofNat 32 i) = none) :
  ∃ addr, kernLoadWords va n s = .error (.fault addr)
  := by
  induction n generalizing s va with
  | zero =>
      obtain ⟨i, hi, -⟩ := h
      omega
  | succ n ih =>
      by_cases hfirst : ∃ i < 4, s.translate pg (va + BitVec.ofNat 32 i) = none
      · obtain ⟨addr, heq⟩ := kernLoad32_fault hcur hpg va hfirst
        exact ⟨addr, bind_of_error heq⟩
      · obtain ⟨i, hi, hnone⟩ := h
        have hle : 4 ≤ i := by
          by_contra hlt
          exact hfirst ⟨i, by omega, hnone⟩
        have heq1 := kernLoad32_run hcur hpg va (fun j hj hn => hfirst ⟨j, hj, hn⟩)
        have hnext : va + 4 + BitVec.ofNat 32 (i - 4) = va + BitVec.ofNat 32 i := by
          have hi4 : i = 4 + (i - 4) := by omega
          conv => rhs; rw [hi4]
          rw [BitVec.ofNat_add, BitVec.add_assoc]
          rfl
        obtain ⟨addr, heq2⟩ := ih (s := s.readAll (span va 4)) hcur hpg (va + 4) (by
          refine ⟨i - 4, by omega, ?_⟩
          rw [(s.readAll_reads (span va 4)).translate, hnext]
          exact hnone)
        refine ⟨addr, ?_⟩
        rw [kernLoadWords, bind_of_eq heq1]
        exact bind_of_error heq2

theorem kernLoadWords_ok (va : Word) (n : Nat) {A : Word → Prop}
    (h : ∀ i < 4 * n, s.translate pg (va + BitVec.ofNat 32 i) ≠ none
      ∧ A (va + BitVec.ofNat 32 i)) :
  ∃ s', kernLoadWords va n s = .ok (s.wordsAt va n, s') ∧ ReadsAt A s s'
  := by
  refine ⟨_, kernLoadWords_run hcur hpg _ _ (fun i hi => (h i hi).1), ?_⟩
  apply readAll_readsAt
  intro a ha
  obtain ⟨i, hi, rfl⟩ := mem_span.mp ha
  exact (h i hi).2

end Reading

end Jos
