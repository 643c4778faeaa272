import Jos.Root.Region

/-!
# Loading programs

What the loader of `kern/env.c` does to the memory of an environment.  It maps pages that were
free, or that only the environment itself had and has given up for others, and it writes to the
pages the environment may write to.  The memory of the kernel and of other environments is left
alone, whatever is loaded.
-/

namespace Jos

namespace Root

open Bytes Prog

variable {avail held : Finset Nat} {l l' : List Nat} {s s0 s1 s' s'' : Kernel}

/-! ### Whose pages are written to -/

/-- Whether a page table entry lets an environment write. -/
def Writable (w : Word) : Prop :=
  refOf w ≠ none ∧ w &&& PTE_W = PTE_W

instance (w : Word) : Decidable (Writable w) :=
  inferInstanceAs (Decidable (_ ∧ _))

/-- Whether the environment `e` may write to the page `q`. -/
def WritableBy (s : Kernel) (e : Fin NENV) (q : Nat) : Prop :=
  ∃ a : PteAddr, a.1 = e ∧ refOf (s.ptes a) = some q ∧ s.ptes a &&& PTE_W = PTE_W

theorem writable_regionPte {p : Nat} (hp : p < 2 ^ 20) :
  Writable (regionPte p)
  := by
  constructor
  · rw [refOf_regionPte hp]
    simp
  · have hbit : ∀ w perm : Word, perm &&& PTE_W = PTE_W →
        (w ||| perm ||| PTE_P) &&& PTE_W = PTE_W := by
      intro w perm hperm
      rw [BitVec.and_or_distrib_right, BitVec.and_or_distrib_right, hperm]
      apply BitVec.eq_of_getLsbD_eq
      intro i _
      simp only [BitVec.getLsbD_or, BitVec.getLsbD_and]
      cases PTE_W.getLsbD i with
      | false => simp
      | true => simp
    exact hbit _ _ (by decide)

/-- What an environment may write to stays so when a page is mapped. -/
theorem Inserted.writable {e : Fin NENV} {va : Word} {hva : va.toNat < UTOP} {p : Nat}
    (h : Inserted avail e va hva p s s') {a : PteAddr} (ha : Writable (s.ptes a)) :
  Writable (s'.ptes a)
  := by
  rw [h.edit.ptes]
  by_cases haa : a = pteAddr e va hva
  · rw [haa, Function.update_self]
    exact writable_regionPte h.lt
  · rw [Function.update_of_ne haa]
    exact ha

/-- The slots of the environment `e`. -/
def Of (e : Fin NENV) : Slot → Prop
  | .dir e' => e' = e
  | .table e' _ => e' = e
  | .page e' _ _ => e' = e
  | .kern _ => False

/-- From `s` to `s'` the page `q` was at the disposal of the environment `e`: nothing else referred
to it, and where it was mapped it is not mapped any more. -/
structure Given (avail : Finset Nat) (e : Fin NENV) (s s' : Kernel) (q : Nat) : Prop where
  avail : q ∈ avail
  alone : ∀ x, s.slotRef x = some q → Of e x
  gone : ∀ a, refOf (s.ptes a) = some q → s'.ptes a ≠ s.ptes a

/-- An environment with other values of what the loader sets. -/
def reloaded (env : Env) (eip esp : Word) (type : EnvType) : Env :=
  { env with
    envTf := { env.envTf with
      tfEip := eip
      tfEsp := esp }
    envType := type }

/-- From `s` to `s'` something was loaded into the environment `e`. -/
structure Loaded (avail : Finset Nat) (e : Fin NENV) (s s' : Kernel) : Prop where
  quiet : ∃ eip esp type, s' = { s with
    mem := s'.mem
    pages := s'.pages
    pageFreeList := s'.pageFreeList
    envs := Function.update s.envs e (reloaded (s.envs e) eip esp type) }
  upper : ∀ (e' : Fin NENV) d, NUPDE ≤ d → d < 1024 → s'.pde e' d = s.pde e' d
  kern : ∀ d < 1024, s'.entry s.kernPgdir d = s.entry s.kernPgdir d
  pde : ∀ e' : Fin NENV, e' ≠ e → ∀ d < 1024, s'.pde e' d = s.pde e' d
  pte : ∀ a : PteAddr, a.1 ≠ e → s'.ptes a = s.ptes a
  fresh : ∀ a, s'.ptes a = s.ptes a
    ∨ ∃ q, refOf (s'.ptes a) = some q ∧ s'.ptes a &&& PTE_W = PTE_W ∧ Given avail e s s' q
  writable : ∀ a, Writable (s.ptes a) → Writable (s'.ptes a)
  tables : ∀ d q, s'.slotRef (.table e d) = some q → Given avail e s s' q
  changed : ∀ q i, i < 1024 → s'.entry q i ≠ s.entry q i →
    WritableBy s e q ∨ Given avail e s s' q

namespace Loaded

variable {e : Fin NENV}

theorem pgdir (h : Loaded avail e s s') (e' : Nat) :
  s'.pgdir e' = s.pgdir e'
  := by
  obtain ⟨eip, esp, type, hq⟩ := h.quiet
  rw [Kernel.pgdir, Kernel.pgdir, hq]
  by_cases he : e' = e
  · rw [he]
    simp only [Function.update_self, reloaded]
  · simp only [Function.update_of_ne he]

theorem live (h : Loaded avail e s s') (e' : Nat) :
  s'.Live e' ↔ s.Live e'
  := by
  obtain ⟨eip, esp, type, hq⟩ := h.quiet
  rw [Kernel.Live, Kernel.Live, hq]
  by_cases he : e' = e
  · rw [he]
    simp only [Function.update_self, reloaded]
  · simp only [Function.update_of_ne he]

theorem kernPgdir (h : Loaded avail e s s') :
  s'.kernPgdir = s.kernPgdir
  := by
  obtain ⟨eip, esp, type, hq⟩ := h.quiet
  rw [hq]

/-- What is not of the environment refers to what it did. -/
theorem slot_others (h : Loaded avail e s s') {x : Slot} (hx : ¬ Of e x) :
  s'.slotRef x = s.slotRef x
  := by
  cases x with
  | dir e' => exact h.pgdir e'
  | table e' d =>
      have hd := d.isLt
      simp only [NUPDE] at hd
      rw [Kernel.slotRef, Kernel.slotRef, h.pde e' hx d (by omega)]
  | page e' d t => exact congrArg refOf (h.pte (e', d, t) hx)
  | kern d => rw [Kernel.slotRef, Kernel.slotRef, h.kernPgdir, h.kern d d.isLt]

/-- Nothing was loaded yet. -/
theorem refl (hs : Wf avail held s) (e : Fin NENV) :
  Loaded avail e s s
  := by
  obtain ⟨l, hl⟩ := hs.mem
  constructor
  case quiet =>
    use (s.envs e).envTf.tfEip, (s.envs e).envTf.tfEsp, (s.envs e).envType
    have henv : reloaded (s.envs e) (s.envs e).envTf.tfEip (s.envs e).envTf.tfEsp
        (s.envs e).envType = s.envs e := rfl
    rw [henv, Function.update_eq_self]
  case upper => exact fun _ _ _ _ => rfl
  case kern => exact fun _ _ => rfl
  case pde => exact fun _ _ _ _ => rfl
  case pte => exact fun _ _ => rfl
  case fresh => exact fun _ => Or.inl rfl
  case writable => exact fun _ h => h
  case tables =>
    intro d q hq
    have howned : ∀ x, s.slotRef x = some q → x = .table e d :=
      fun x hx => hl.balanced.owned (.table e d) x q trivial hq hx
    constructor
    case avail => exact Kernel.mem_avail hl hq
    case alone =>
      intro x hx
      rw [howned x hx]
      rfl
    case gone =>
      intro a ha
      cases howned (pageSlot a) ha
  case changed => exact fun q i _ hne => (hne rfl).elim

/-! ### Mapping another page -/

section Insert

variable {va : Word} {hva : va.toNat < UTOP} {p : Nat} (h : Loaded avail e s0 s)
  (hs0 : Wf avail ∅ s0) (hs : Wf avail ∅ s) (hins : Inserted avail e va hva p s s1)
include h hs hins

omit h hs in
/-- What is at the disposal of the environment stays so. -/
theorem given_mono {q : Nat} (hq : Given avail e s0 s q) (hqp : q ≠ p) :
  Given avail e s0 s1 q
  := by
  constructor
  case avail => exact hq.avail
  case alone => exact hq.alone
  case gone =>
    intro a ha heq
    have hpte := congrFun hins.edit.ptes a
    by_cases haa : a = pteAddr e va hva
    · rw [haa, Function.update_self] at hpte
      rw [← heq, haa, hpte, refOf_regionPte hins.lt] at ha
      exact hqp (Option.some.inj ha).symm
    · rw [Function.update_of_ne haa] at hpte
      exact hq.gone a ha (hpte.symm.trans heq)

/-- Free pages are at the disposal of the environment. -/
theorem given_of_free {q : Nat} (hq : s.OnFreeList q)
    (hne : q = p → s1.ptes (pteAddr e va hva) ≠ s0.ptes (pteAddr e va hva)) :
  Given avail e s0 s1 q
  := by
  constructor
  case avail => exact (hs.free_iff.mp hq).1
  case alone =>
    intro x hx
    by_contra hof
    rw [← h.slot_others hof] at hx
    exact hs.not_ref_of_free hq x hx
  case gone =>
    intro a ha heq
    have hslot : s1.slotRef (pageSlot a) = some q := by
      rw [slotRef_pageSlot, heq]
      exact ha
    obtain ⟨hself, hqp⟩ | ⟨htable, -⟩ | ⟨-, hold⟩ := hins.slot hslot
    · obtain rfl := pageSlot_inj hself
      exact hne hqp heq
    · cases htable
    · exact hs.not_ref_of_free hq _ hold

/-- The page that is mapped is at the disposal of the environment, or was mapped there already. -/
theorem given_self :
  WritableBy s0 e p ∨ Given avail e s0 s1 p
  := by
  by_cases heq : s1.ptes (pteAddr e va hva) = s0.ptes (pteAddr e va hva)
  · left
    have hpte := congrFun hins.edit.ptes (pteAddr e va hva)
    rw [Function.update_self] at hpte
    refine ⟨pteAddr e va hva, rfl, ?_, ?_⟩
    · rw [← heq, hpte, refOf_regionPte hins.lt]
    · rw [← heq, hpte]
      exact (writable_regionPte hins.lt).2
  · exact Or.inr (h.given_of_free hs hins hins.free (fun _ => heq))

omit h in
/-- A page table that is made was a free page. -/
theorem free_of_new_table {q : Nat} (hnone :
      s.slotRef (.table e ⟨PDX va, PDX_lt_of_lt_UTOP hva⟩) = none)
    (hq : s1.slotRef (.table e ⟨PDX va, PDX_lt_of_lt_UTOP hva⟩) = some q) :
  s.OnFreeList q
  := by
  obtain ⟨l1, hl1⟩ := hins.wf.mem
  apply hs.free_iff.mpr
  refine ⟨Kernel.mem_avail hl1 hq, by simp, ?_⟩
  intro x hx
  by_cases hself : x = pageSlot (pteAddr e va hva)
  · have hnone' : refOf (s.pde e (PDX va)) = none := hnone
    rw [hself, slotRef_pageSlot, ptes_pteAddr, Kernel.pteAt, Kernel.pte, hnone', refOf_zero] at hx
    cases hx
  · have hx1 := hins.slot_kept hx hself
    obtain rfl := hl1.balanced.owned (.table e ⟨PDX va, PDX_lt_of_lt_UTOP hva⟩) x q trivial hq hx1
    rw [hnone] at hx
    cases hx

include hs0 in
/-- Mapping a free page is part of loading. -/
theorem insert :
  Loaded avail e s0 s1
  := by
  obtain ⟨l0, hl0⟩ := hs0.mem
  have htable_ne : ∀ d q, s1.slotRef (.table e d) = some q → q ≠ p := by
    rintro d q hq rfl
    have hslot := hins.sole hs _ hq
    rw [pageSlot] at hslot
    cases hslot
  have htables : ∀ d q, s1.slotRef (.table e d) = some q → Given avail e s0 s1 q := by
    intro d q hq
    have hqp := htable_ne d q hq
    obtain ⟨hself, -⟩ | ⟨hself, hnone⟩ | ⟨-, hold⟩ := hins.slot hq
    · rw [pageSlot] at hself
      cases hself
    · rw [hself] at hq hnone
      exact h.given_of_free hs hins (free_of_new_table hs hins hnone hq) (fun hp => (hqp hp).elim)
    · exact given_mono hins (h.tables d q hold) hqp
  constructor
  case quiet =>
    obtain ⟨eip, esp, type, hq⟩ := h.quiet
    use eip, esp, type
    rw [hins.edit.quiet, hq]
  case upper =>
    intro e' d hd hd'
    rw [hins.edit.upper e' d hd hd', h.upper e' d hd hd']
  case kern =>
    intro d hd
    have hk := hins.edit.kern d hd
    rw [h.kernPgdir] at hk
    rw [hk, h.kern d hd]
  case pde =>
    intro e' he d hd
    rw [hins.tables.others e' d hd (Or.inl he), h.pde e' he d hd]
  case pte =>
    intro a ha
    rw [hins.edit.ptes, Function.update_of_ne (by rintro rfl; exact ha rfl), h.pte a ha]
  case fresh =>
    intro a
    by_cases haa : a = pteAddr e va hva
    · by_cases heq : s1.ptes (pteAddr e va hva) = s0.ptes (pteAddr e va hva)
      · left
        rw [haa, heq]
      · right
        use p, haa ▸ hins.slot_self
        constructor
        · rw [haa, hins.edit.ptes, Function.update_self]
          exact (writable_regionPte hins.lt).2
        · exact h.given_of_free hs hins hins.free (fun _ => heq)
    · have hpte : s1.ptes a = s.ptes a := by
        rw [hins.edit.ptes, Function.update_of_ne haa]
      rw [hpte]
      obtain heq | ⟨q, hq, hw, hg⟩ := h.fresh a
      · exact Or.inl heq
      · right
        use q, hq, hw
        apply given_mono hins hg
        rintro rfl
        exact hs.not_ref_of_free hins.free (pageSlot a) hq
  case writable => exact fun a ha => hins.writable (h.writable a ha)
  case tables => exact htables
  case changed =>
    intro q i hi hne
    by_cases hold : s.entry q i = s0.entry q i
    · rw [← hold] at hne
      obtain hdir | htable | hfree := hins.frame q i hi hne
      · -- the directory of the environment
        right
        have hdir0 : s0.slotRef (.dir e) = some q := by
          rw [← hdir]
          exact (h.pgdir e).symm
        have howned : ∀ x, s0.slotRef x = some q → x = .dir e :=
          fun x hx => hl0.balanced.owned (.dir e) x q trivial hdir0 hx
        constructor
        case avail => exact Kernel.mem_avail hl0 hdir0
        case alone =>
          intro x hx
          rw [howned x hx]
          rfl
        case gone =>
          intro a ha
          cases howned (pageSlot a) ha
      · right
        exact htables _ q (hins.slot_kept htable (by rw [pageSlot]; simp))
      · by_cases hqp : q = p
        · rw [hqp]
          exact h.given_self hs hins
        · exact Or.inr (h.given_of_free hs hins hfree (fun hp => (hqp hp).elim))
    · obtain hw | hg := h.changed q i hi hold
      · exact Or.inl hw
      · by_cases hqp : q = p
        · rw [hqp]
          exact h.given_self hs hins
        · exact Or.inr (given_mono hins hg hqp)

end Insert

end Loaded

end Root

end Jos
