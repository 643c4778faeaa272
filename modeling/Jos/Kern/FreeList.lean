import Jos.Kern.MemInit
import Jos.Lib.OpenList

/-!
# The free list in the order of the boot

When `check_page_free_list` runs first, `entry_pgdir` maps four megabytes only.  So it puts the pages
of that memory in front on the free list, without memory for a second list: two lists grow at
their ends, the pages go to the one or the other, and then the second is appended to the first.  The
pointers `tp[0]` and `tp[1]` to where the next page of each list is linked point to local variables
first and into the free list itself later, into links that the loop has just followed.
-/

namespace Jos

open Bytes Prog

/-! ### The source -/

/-- The local variables that hold the heads of the two lists. -/
inductive LinkVar where
  | pp1
  | pp2
  deriving DecidableEq

/-- The variable for the head of the list of the pages of a type. -/
def LinkVar.head (pagetype : Bool) : LinkVar :=
  if pagetype then .pp2 else .pp1

/-- The local variables of the block that moves pages. `tp` is indexed by the type of a page. -/
structure TwoLists where
  pp1 : Option Nat
  pp2 : Option Nat
  tp : Bool → Pointee LinkVar Nat

/-- `*ptr = v`. -/
def assign (ptr : Pointee LinkVar Nat) (v : Option Nat) (x : TwoLists) : Prog Kernel TwoLists :=
  match ptr with
  | .var .pp1 => pure { x with pp1 := v }
  | .var .pp2 => pure { x with pp2 := v }
  | .link p => do
      modify (fun s => s.setPage p { s.pages p with ppLink := v })
      pure x

/-- Whether the page is not below the limit, a number of page directory entries. -/
def pagetype (pdxLimit pp : Nat) : Bool :=
  PDX (page2pa pp) ≥ pdxLimit

/-- Move the pages from `pp` on to the two lists, at most `n` of them with the end. -/
def movePages (pdxLimit : Nat) : Nat → Option Nat → TwoLists → Prog Kernel TwoLists
  | 0, _, _ => Prog.leave
  | _ + 1, none, x => pure x
  | n + 1, some pp, x => do
      let t := pagetype pdxLimit pp
      let x ← assign (x.tp t) (some pp) x
      let x := { x with tp := Function.update x.tp t (.link pp) }
      let s ← get
      movePages pdxLimit n (s.pages pp).ppLink x

/-- Move pages with lower addresses first in the free list. The variables `pp1` and `pp2` are not
initialized. -/
def lowPagesFirst (n pdxLimit : Nat) (pp1 pp2 : Option Nat) : Prog Kernel Unit := do
  let s ← get
  let x ← movePages pdxLimit n s.pageFreeList
    { pp1 := pp1, pp2 := pp2, tp := fun t => .var (.head t) }
  let x ← assign (x.tp true) none x
  let x ← assign (x.tp false) x.pp2 x
  modify (fun s => { s with pageFreeList := x.pp1 })

/-- Give up unless `c` holds. -/
def assertThat (c : Prop) [Decidable c] (text : String) : Prog Kernel Unit :=
  if c then pure () else Prog.panic ("assertion failed: " ++ text)

/-- Overwrite the start of the pages below the limit from `pp` on. -/
def spoilPages (pdxLimit : Nat) : Nat → Option Nat → Prog Kernel Unit
  | 0, _ => Prog.leave
  | _ + 1, none => pure ()
  | n + 1, some pp => do
      if PDX (page2pa pp) < pdxLimit then
        let kva ← page2kva pp
        modify (fun s => { s with mem := fill s.mem (kva * PGSIZE) 128 0x97 })
      let s ← get
      spoilPages pdxLimit n (s.pages pp).ppLink

/-- Check a page of the free list. That `pp` points to an element of `pages` needs two assertions
more in the source, here the pages are their numbers. -/
def checkFreePage (firstFreePage pp : Nat) : Prog Kernel Unit := do
  let s ← get
  assertThat (pp < s.npages) "pp < pages + npages"
  assertThat (page2pa pp ≠ 0) "page2pa(pp) != 0"
  assertThat ((page2pa pp).toNat ≠ IOPHYSMEM) "page2pa(pp) != IOPHYSMEM"
  assertThat ((page2pa pp).toNat ≠ EXTPHYSMEM - PGSIZE) "page2pa(pp) != EXTPHYSMEM - PGSIZE"
  assertThat ((page2pa pp).toNat ≠ EXTPHYSMEM) "page2pa(pp) != EXTPHYSMEM"
  if ¬ (page2pa pp).toNat < EXTPHYSMEM then
    let kva ← page2kva pp
    assertThat (KERNBASE + kva * PGSIZE ≥ firstFreePage)
      "page2pa(pp) < EXTPHYSMEM || (char *) page2kva(pp) >= first_free_page"
  assertThat ((page2pa pp).toNat ≠ MPENTRY_PADDR) "page2pa(pp) != MPENTRY_PADDR"

/-- Check the pages of the free list from `pp` on, and count those of base memory and those of
extended memory. -/
def checkFreePages (firstFreePage : Nat) : Nat → Option Nat → Nat → Nat → Prog Kernel (Nat × Nat)
  | 0, _, _, _ => Prog.leave
  | _ + 1, none, nfreeBasemem, nfreeExtmem => pure (nfreeBasemem, nfreeExtmem)
  | n + 1, some pp, nfreeBasemem, nfreeExtmem => do
      checkFreePage firstFreePage pp
      let s ← get
      if (page2pa pp).toNat < EXTPHYSMEM then
        checkFreePages firstFreePage n (s.pages pp).ppLink (nfreeBasemem + 1) nfreeExtmem
      else
        checkFreePages firstFreePage n (s.pages pp).ppLink nfreeBasemem (nfreeExtmem + 1)

/-- What is done with the free list once it is in order. -/
def spoilAndCheck (n nextfree pdxLimit : Nat) : Prog Kernel Unit := do
  let s ← get
  spoilPages pdxLimit n s.pageFreeList
  let (firstFreePage, _) ← bootAlloc nextfree 0
  let s ← get
  let (nfreeBasemem, nfreeExtmem) ← checkFreePages firstFreePage n s.pageFreeList 0 0
  assertThat (0 < nfreeBasemem) "nfree_basemem > 0"
  assertThat (0 < nfreeExtmem) "nfree_extmem > 0"

/-- Check that the pages on the free list are reasonable. `nextfree` is where `boot_alloc` goes on,
and `n` is more than the pages on the list. -/
def checkPageFreeList (n nextfree : Nat) (onlyLowMemory : Bool) (pp1 pp2 : Option Nat) :
    Prog Kernel Unit := do
  let pdxLimit := if onlyLowMemory then 1 else NPDENTRIES
  let s ← get
  if s.pageFreeList = none then
    Prog.panic "'page_free_list' is a null pointer!"
  else
    if onlyLowMemory then
      lowPagesFirst n pdxLimit pp1 pp2
    spoilAndCheck n nextfree pdxLimit

/-! ### Links as memory -/

/-- The links of the pages and the local variables are where `tp` points. -/
def TwoLists.view (x : TwoLists) (s : Kernel) : Pointee LinkVar Nat → Option Nat
  | .var .pp1 => x.pp1
  | .var .pp2 => x.pp2
  | .link p => (s.pages p).ppLink

@[simp]
theorem setPage_pages_self (s : Kernel) (p : Nat) (pp : PageInfo) :
  (s.setPage p pp).pages p = pp
  := by
  apply Function.update_self

@[simp]
theorem setPage_pages_of_ne (s : Kernel) {p q : Nat} (pp : PageInfo) (h : q ≠ p) :
  (s.setPage p pp).pages q = s.pages q
  := by
  apply Function.update_of_ne h

/-- Nothing but the links of the pages in `l` and the head of the free list has changed. -/
structure Relinked (l : List Nat) (s s' : Kernel) : Prop where
  others : s' = { s with pages := s'.pages, pageFreeList := s'.pageFreeList }
  refs : ∀ p, (s'.pages p).ppRef = (s.pages p).ppRef
  links : ∀ p ∉ l, s'.pages p = s.pages p

namespace Relinked

variable {l l' : List Nat} {s s' s'' : Kernel}

theorem refl (l : List Nat) (s : Kernel) :
  Relinked l s s
  := ⟨rfl, fun _ => rfl, fun _ _ => rfl⟩

theorem trans (h : Relinked l s s') (h' : Relinked l s' s'') :
  Relinked l s s''
  := by
  constructor
  · rw [h'.others, h.others]
  · intro p
    rw [h'.refs, h.refs]
  · intro p hp
    rw [h'.links p hp, h.links p hp]

/-- Changing a link of the list. -/
theorem setLink (s : Kernel) {p : Nat} (hp : p ∈ l) (v : Option Nat) :
  Relinked l s (s.setPage p { s.pages p with ppLink := v })
  := by
  constructor
  · rfl
  · intro q
    by_cases hq : q = p
    · rw [hq, setPage_pages_self]
    · rw [setPage_pages_of_ne s _ hq]
  · intro q hq
    apply setPage_pages_of_ne
    rintro rfl
    apply hq hp

end Relinked

/-- What is assigned is in the place afterwards, and nothing else has changed. -/
theorem assign_run {ptr : Pointee LinkVar Nat} {l : List Nat} (hptr : ∀ p, ptr = .link p → p ∈ l)
    (v : Option Nat) (x : TwoLists) (s : Kernel) :
  ∃ x' s', assign ptr v x s = .ok (x', s') ∧ x'.tp = x.tp
    ∧ x'.view s' = Function.update (x.view s) ptr v ∧ Relinked l s s'
  := by
  match ptr with
  | .var .pp1 =>
      use { x with pp1 := v }, s, rfl, rfl
      constructor
      · funext q
        cases q with
        | var y => cases y <;> rfl
        | link p => rfl
      · apply Relinked.refl
  | .var .pp2 =>
      use { x with pp2 := v }, s, rfl, rfl
      constructor
      · funext q
        cases q with
        | var y => cases y <;> rfl
        | link p => rfl
      · apply Relinked.refl
  | .link p =>
      use x, s.setPage p { s.pages p with ppLink := v }, rfl, rfl
      constructor
      · funext q
        cases q with
        | var y => cases y <;> rfl
        | link q =>
            by_cases hq : q = p
            · rw [hq, Function.update_self, TwoLists.view, setPage_pages_self]
            · rw [Function.update_of_ne (by simpa using hq), TwoLists.view,
                setPage_pages_of_ne s _ hq]
              rfl
      · apply Relinked.setLink s (hptr p rfl)

/-! ### Moving the pages -/

/-- The two lists grow at their ends, where `tp` points to, and hold pages of their types.  The
pages `rest` are still to be moved. -/
structure Growing (pdxLimit : Nat) (x : TwoLists) (s : Kernel) (lists : Bool → List Nat)
    (rest : List Nat) : Prop where
  opens : ∀ t, Open (x.view s) (.var (.head t)) (lists t) (x.tp t)
  types : ∀ t, ∀ p ∈ lists t, pagetype pdxLimit p = t
  nodup : ∀ t, (lists t ++ rest).Nodup

namespace Growing

variable {pdxLimit : Nat} {x : TwoLists} {s : Kernel} {lists : Bool → List Nat} {rest : List Nat}

/-- An end that is the link out of a page is that of a page on the list. -/
theorem mem_of_tp (h : Growing pdxLimit x s lists rest) {t : Bool} {p : Nat}
    (hp : x.tp t = .link p) :
  p ∈ lists t
  := by
  rcases (h.opens t).tail with heq | ⟨q, hq, heq⟩
  · rw [heq] at hp
    cases hp
  · rw [heq] at hp
    cases hp
    apply hq

/-- An end is not the variable of the other list. -/
theorem tp_ne_var (h : Growing pdxLimit x s lists rest) {t t' : Bool} (ht : t ≠ t') :
  x.tp t ≠ .var (.head t')
  := by
  rcases (h.opens t).tail with heq | ⟨q, hq, heq⟩
  · rw [heq]
    cases t <;> cases t' <;> first | (exact absurd rfl ht) | nofun
  · rw [heq]
    nofun

/-- The pages of one type are not on the list of the other. -/
theorem not_mem (h : Growing pdxLimit x s lists rest) {t t' : Bool} (ht : t ≠ t') {p : Nat}
    (hp : p ∈ lists t') :
  p ∉ lists t
  := by
  intro hp'
  apply ht
  rw [← h.types t p hp', h.types t' p hp]

/-- Writing to an end leaves the list of the other type as it is. -/
theorem write_other (h : Growing pdxLimit x s lists rest) {t t' : Bool} (ht : t ≠ t')
    (v : Option Nat) :
  Open (Function.update (x.view s) (x.tp t) v) (.var (.head t')) (lists t') (x.tp t')
  := by
  apply (h.opens t').write_other (h.tp_ne_var ht)
  intro p hp heq
  apply h.not_mem ht hp (h.mem_of_tp heq)

/-- Writing to an end leaves the list that ends there as it is. -/
theorem write_tail (h : Growing pdxLimit x s lists rest) (t : Bool) (v : Option Nat) :
  Open (Function.update (x.view s) (x.tp t) v) (.var (.head t)) (lists t) (x.tp t)
  := by
  apply (h.opens t).write_tail
  · nofun
  · apply (List.nodup_append.mp (h.nodup t)).1

/-- Nor does it change the links out of the pages that are still to be moved. -/
theorem write_rest (h : Growing pdxLimit x s lists rest) {t : Bool} {v : Option Nat} {p : Nat}
    (hp : p ∈ rest) :
  Function.update (x.view s) (x.tp t) v (.link p) = x.view s (.link p)
  := by
  apply Function.update_of_ne
  intro heq
  apply (List.nodup_append.mp (h.nodup t)).2.2 p (h.mem_of_tp heq.symm) p hp rfl

/-- A page that is linked at the end of the list of its type is the last of that list. -/
theorem move {p : Nat} {x' : TwoLists} {s' : Kernel} (h : Growing pdxLimit x s lists (p :: rest))
    (htp : x'.tp = x.tp)
    (hview : x'.view s' = Function.update (x.view s) (x.tp (pagetype pdxLimit p)) (some p)) :
  Growing pdxLimit { x' with tp := Function.update x'.tp (pagetype pdxLimit p) (.link p) } s'
    (Function.update lists (pagetype pdxLimit p) (lists (pagetype pdxLimit p) ++ [p])) rest
  := by
  constructor
  · intro t
    change Open (x'.view s') _ _ (Function.update x'.tp _ _ t)
    rw [htp, hview]
    by_cases ht : t = pagetype pdxLimit p
    · subst ht
      rw [Function.update_self, Function.update_self]
      apply (h.write_tail _ _).snoc
      rw [Function.update_self]
    · rw [Function.update_of_ne ht, Function.update_of_ne ht]
      apply h.write_other (Ne.symm ht)
  · intro t q hq
    by_cases ht : t = pagetype pdxLimit p
    · subst ht
      rw [Function.update_self, List.mem_append, List.mem_singleton] at hq
      rcases hq with hq | rfl
      · apply h.types _ q hq
      · rfl
    · rw [Function.update_of_ne ht] at hq
      apply h.types t q hq
  · intro t
    by_cases ht : t = pagetype pdxLimit p
    · subst ht
      rw [Function.update_self, List.append_assoc]
      apply h.nodup
    · rw [Function.update_of_ne ht]
      apply List.Nodup.sublist _ (h.nodup t)
      apply List.Sublist.append_left (List.sublist_cons_self p rest)

end Growing

/-- Moving pages appends them to the lists of their types. -/
theorem movePages_run {pdxLimit n : Nat} {x : TwoLists} {s : Kernel} {pp : Option Nat}
    {lists : Bool → List Nat} {rest l : List Nat} (h : Growing pdxLimit x s lists rest)
    (hpp : Chain (fun p => (s.pages p).ppLink) pp rest) (hn : rest.length < n)
    (hlists : ∀ t, lists t ⊆ l) (hrest : rest ⊆ l) :
  ∃ x' s', movePages pdxLimit n pp x s = .ok (x', s')
    ∧ Growing pdxLimit x' s' (fun t => lists t ++ rest.filter (pagetype pdxLimit · = t)) []
    ∧ Relinked l s s'
  := by
  induction rest generalizing n pp x s lists with
  | nil =>
      obtain ⟨n, rfl⟩ := Nat.exists_eq_succ_of_ne_zero (Nat.ne_zero_of_lt hn)
      obtain rfl : pp = none := hpp
      use x, s, rfl
      constructor
      · simpa using h
      · apply Relinked.refl
  | cons p rest ih =>
      obtain ⟨n, rfl⟩ := Nat.exists_eq_succ_of_ne_zero (Nat.ne_zero_of_lt hn)
      obtain ⟨rfl, hpp⟩ := hpp
      obtain ⟨x₁, s₁, hrun, htp, hview, hlinks⟩ := assign_run
        (fun q hq => hlists (pagetype pdxLimit p) (h.mem_of_tp hq)) (some p) x s
      -- the links that are still to be followed have not been written
      have hfollow : ∀ q ∈ p :: rest, (s₁.pages q).ppLink = (s.pages q).ppLink := by
        intro q hq
        have hq' : x₁.view s₁ (.link q) = x.view s (.link q) := by
          rw [hview]
          apply h.write_rest hq
        apply hq'
      have hpp₁ : Chain (fun p => (s₁.pages p).ppLink) (s₁.pages p).ppLink rest := by
        rw [hfollow p List.mem_cons_self]
        apply hpp.congr
        intro q hq
        apply hfollow q (List.mem_cons_of_mem p hq)
      have hlists₁ : ∀ t, Function.update lists (pagetype pdxLimit p)
          (lists (pagetype pdxLimit p) ++ [p]) t ⊆ l := by
        intro t
        by_cases ht : t = pagetype pdxLimit p
        · subst ht
          rw [Function.update_self, List.append_subset]
          constructor
          · apply hlists
          · simpa using hrest List.mem_cons_self
        · rw [Function.update_of_ne ht]
          apply hlists
      obtain ⟨x', s', hrun', hgrowing, hlinks'⟩ := ih (h.move htp hview) hpp₁ (by simpa using hn)
        hlists₁ (List.subset_of_cons_subset hrest)
      use x', s'
      constructor
      · rw [movePages, Prog.bind_of_eq hrun]
        apply hrun'
      constructor
      · convert hgrowing using 2 with t
        by_cases ht : t = pagetype pdxLimit p
        · subst ht
          simp
        · simp [Function.update_of_ne ht, Ne.symm ht]
      · apply hlinks.trans hlinks'

/-- The pages below the limit come first, then the others, both in the order they had. -/
theorem lowPagesFirst_run (pdxLimit : Nat) {n : Nat} (pp1 pp2 : Option Nat) {s : Kernel} {l : List Nat}
    (hl : Chain (fun p => (s.pages p).ppLink) s.pageFreeList l) (hn : l.length < n) :
  ∃ s', lowPagesFirst n pdxLimit pp1 pp2 s = .ok ((), s')
    ∧ Chain (fun p => (s'.pages p).ppLink) s'.pageFreeList
      (l.filter (pagetype pdxLimit · = false) ++ l.filter (pagetype pdxLimit · = true))
    ∧ Relinked l s s'
  := by
  have hstart : Growing pdxLimit { pp1 := pp1, pp2 := pp2, tp := fun t => .var (.head t) } s
      (fun _ => []) l :=
    ⟨fun _ => rfl, fun _ _ hp => (List.not_mem_nil hp).elim, fun _ => hl.nodup⟩
  obtain ⟨x, s₁, hrun, h, hlinks⟩ := movePages_run hstart hl hn
    (fun _ => List.nil_subset l) (List.Subset.refl l)
  have hmem : ∀ t, ∀ p, x.tp t = .link p → p ∈ l := by
    intro t p hp
    apply List.mem_of_mem_filter (h.mem_of_tp hp)
  -- the list of the other pages ends
  obtain ⟨x₂, s₂, hrun₂, htp₂, hview₂, hlinks₂⟩ := assign_run (hmem true) none x s₁
  have hlow₂ := h.write_other (show true ≠ false by decide) none
  have hend : Chain (fun p => Function.update (x.view s₁) (x.tp true) none (.link p))
      (Function.update (x.view s₁) (x.tp true) none (x.tp true)) [] := by
    rw [Function.update_self]
    rfl
  have hhigh₂ := (h.write_tail true none).close hend
  rw [← hview₂, List.nil_append] at hlow₂
  rw [← hview₂, List.nil_append, List.append_nil] at hhigh₂
  -- and follows the list of the pages below the limit
  obtain ⟨x₃, s₃, hrun₃, -, hview₃, hlinks₃⟩ := assign_run (hmem false) x₂.pp2 x₂ s₂
  have hlow₃ : Open (x₃.view s₃) (.var .pp1) (l.filter (pagetype pdxLimit · = false))
      (x.tp false) := by
    rw [hview₃]
    apply hlow₂.write_tail
    · nofun
    · apply hl.nodup.filter
  have hhigh₃ : Chain (fun p => x₃.view s₃ (.link p)) (x₃.view s₃ (x.tp false))
      (l.filter (pagetype pdxLimit · = true)) := by
    rw [hview₃, Function.update_self]
    apply hhigh₂.congr
    intro p hp
    apply Function.update_of_ne
    intro heq
    apply h.not_mem (show false ≠ true by decide) hp (h.mem_of_tp heq.symm)
  use { s₃ with pageFreeList := x₃.pp1 }
  constructor
  · rw [lowPagesFirst, Prog.get_bind, Prog.bind_of_eq hrun, Prog.bind_of_eq hrun₂, htp₂,
      Prog.bind_of_eq hrun₃]
    rfl
  constructor
  · apply hlow₃.close hhigh₃
  · obtain ⟨hothers, hrefs, hpages⟩ := (hlinks.trans hlinks₂).trans hlinks₃
    constructor
    · rw [hothers]
    · apply hrefs
    · apply hpages

/-! ### The list that comes out -/

/-- `l'` holds the elements of `l`, each once, first those with `p` and then the others, and both in
the order they have in `l`. -/
structure StablePartition {α : Type} (p : α → Bool) (l l' : List α) : Prop where
  perm : l'.Perm l
  nodup : l'.Nodup
  first : l'.Pairwise (fun a b => p b → p a)
  order : ∀ t, l'.filter (p · = t) = l.filter (p · = t)

/-- The two parts of a list without repetitions, one behind the other. -/
theorem StablePartition.of_parts {α : Type} {p : α → Bool} {l : List α} (hl : l.Nodup) :
  StablePartition p l (l.filter (p · = true) ++ l.filter (p · = false))
  := by
  have hperm : (l.filter (p · = true) ++ l.filter (p · = false)).Perm l := by
    convert List.filter_append_perm p l using 3
    · simp
    · ext a
      cases p a <;> rfl
  constructor
  case perm => apply hperm
  case nodup => apply hperm.nodup_iff.mpr hl
  case first =>
    rw [List.pairwise_append]
    refine ⟨?_, ?_, ?_⟩
    · apply List.pairwise_of_forall_mem_list
      intro a ha b _ _
      simpa using (List.mem_filter.mp ha).2
    · apply List.pairwise_of_forall_mem_list
      intro a _ b hb hpb
      simp [hpb] at hb
    · intro a ha b _ _
      simpa using (List.mem_filter.mp ha).2
  case order =>
    intro t
    rw [List.filter_append, List.filter_filter, List.filter_filter]
    cases t with
    | true => simp
    | false => simp

/-- A page is below the first page directory entry's memory when its address is below four
megabytes. -/
theorem pagetype_one (p : Nat) :
  pagetype 1 p = !decide ((page2pa p).toNat < 0x400000)
  := by
  rw [pagetype, PDX_eq]
  have hlt := (page2pa p).isLt
  by_cases h : (page2pa p).toNat < 0x400000
  · simp only [h, decide_true, Bool.not_true, decide_eq_false_iff_not]
    omega
  · simp only [h, decide_false, Bool.not_false, decide_eq_true_eq]
    omega

/-- The pages of the two types, one list behind the other. -/
theorem lowPagesFirst_order {l : List Nat} (hl : l.Nodup) :
  StablePartition (fun p => decide ((page2pa p).toNat < 0x400000)) l
    (l.filter (pagetype 1 · = false) ++ l.filter (pagetype 1 · = true))
  := by
  convert StablePartition.of_parts hl using 2
  · congr 1
    funext p
    simp [pagetype_one]
  · congr 1
    funext p
    simp [pagetype_one]

/-- For every free list that ends, the list that comes out is a stable partition of it: the pages
below four megabytes first. -/
theorem lowPagesFirst_partitions {n : Nat} (pp1 pp2 : Option Nat) {s : Kernel} {l : List Nat}
    (hl : Chain (fun p => (s.pages p).ppLink) s.pageFreeList l) (hn : l.length < n) :
  ∃ s' l', lowPagesFirst n 1 pp1 pp2 s = .ok ((), s')
    ∧ Chain (fun p => (s'.pages p).ppLink) s'.pageFreeList l'
    ∧ StablePartition (fun p => decide ((page2pa p).toNat < 0x400000)) l l'
    ∧ Relinked l s s'
  := by
  obtain ⟨s', hrun, hchain, hlinks⟩ := lowPagesFirst_run 1 pp1 pp2 hl hn
  exact ⟨s', _, hrun, hchain, lowPagesFirst_order hl.nodup, hlinks⟩

/-- A free list on which pages on both sides of four megabytes alternate. -/
def alternating : Kernel where
  npages := 0x600
  kernPgdir := 1
  pageFreeList := some 0x500
  pages := fun p =>
    if p = 0x500 then { ppLink := some 3 }
    else if p = 3 then { ppLink := some 0x401 }
    else if p = 0x401 then { ppLink := some 2 }
    else {}

/-- The pages `3` and `2` come first, and `0x500` and `0x401` after them. -/
theorem lowPagesFirst_alternating :
  ∃ s' l', lowPagesFirst 5 1 none none alternating = .ok ((), s')
    ∧ Chain (fun p => (s'.pages p).ppLink) s'.pageFreeList l'
    ∧ StablePartition (fun p => decide ((page2pa p).toNat < 0x400000)) [0x500, 3, 0x401, 2] l'
    ∧ Relinked [0x500, 3, 0x401, 2] alternating s'
  := lowPagesFirst_partitions none none ⟨rfl, rfl, rfl, rfl, rfl⟩ (by decide)

/-! ### The whole check -/

variable {s s' s'' : Kernel} {l rest : List Nat} {n : Nat}

@[simp]
theorem mayEnd_assertThat {c : Prop} [Decidable c] {text : String} {Q : Unit → Kernel → Prop}
    {L : Kernel → Prop} :
  (assertThat c text).MayEnd s Q L ↔ (c → Q () s)
  := by
  rw [assertThat, mayEnd_ite]
  simp

/-- Nothing but the contents of the pages in `l` has changed. -/
structure Spoiled (l : List Nat) (s s' : Kernel) : Prop where
  others : s' = { s with mem := s'.mem }
  mem : ∀ p ∉ l, ∀ o < PGSIZE, s'.mem (p * PGSIZE + o) = s.mem (p * PGSIZE + o)

theorem Spoiled.trans (h : Spoiled l s s') (h' : Spoiled l s' s'') :
  Spoiled l s s''
  := by
  constructor
  · rw [h'.others, h.others]
  · intro p hp o ho
    rw [h'.mem p hp o ho, h.mem p hp o ho]

theorem page2kva_mayEnd {p : Nat} (hp : p < 2 ^ 20) {L : Kernel → Prop} :
  (page2kva p).MayEnd s (fun kva s' => kva = p ∧ s' = s ∧ p < s.npages) L
  := by
  rw [page2kva, KADDR, PGNUM_page2pa hp, mayEnd_bind, mayEnd_get, mayEnd_ite, mayEnd_pure]
  constructor
  · intro _
    simp
  · intro hlt
    exact ⟨rfl, rfl, Nat.lt_of_not_le hlt⟩

/-- Overwriting the start of a page of the list. -/
theorem Spoiled.fill (s : Kernel) {p : Nat} (hp : p ∈ l) :
  Spoiled l s { s with mem := Bytes.fill s.mem (p * PGSIZE) 128 0x97 }
  := by
  constructor
  · rfl
  · intro q hq o ho
    apply if_neg
    have hne : q ≠ p := by
      rintro rfl
      apply hq hp
    simp only [PGSIZE] at ho ⊢
    omega

/-- The spoiled pages are those on the list. -/
theorem spoilPages_spoils {pdxLimit : Nat} {pp : Option Nat}
    (hpp : Chain (fun p => (s.pages p).ppLink) pp rest) (hn : rest.length < n)
    (hrest : ∀ p ∈ rest, p ∈ l ∧ p < 2 ^ 20) :
  (spoilPages pdxLimit n pp).MayEnd s (fun _ s' => Spoiled l s s') (fun _ => False)
  := by
  induction rest generalizing n pp s with
  | nil =>
      obtain ⟨n, rfl⟩ := Nat.exists_eq_succ_of_ne_zero (Nat.ne_zero_of_lt hn)
      obtain rfl : pp = none := hpp
      rw [spoilPages, mayEnd_pure]
      exact ⟨rfl, fun _ _ _ _ => rfl⟩
  | cons p rest ih =>
      obtain ⟨n, rfl⟩ := Nat.exists_eq_succ_of_ne_zero (Nat.ne_zero_of_lt hn)
      obtain ⟨rfl, hpp⟩ := hpp
      obtain ⟨hmem, hlt⟩ := hrest p List.mem_cons_self
      -- the links are the same after the page is overwritten, or left as it is
      have hnext : ∀ s₁, Spoiled l s s₁ → (do
          let s ← get
          spoilPages pdxLimit n (s.pages p).ppLink : Prog Kernel Unit).MayEnd s₁
            (fun _ s' => Spoiled l s s') (fun _ => False) := by
        intro s₁ h₁
        have hpages : s₁.pages = s.pages := by rw [h₁.others]
        rw [mayEnd_bind, mayEnd_get]
        have hpp₁ : Chain (fun p => (s₁.pages p).ppLink) (s₁.pages p).ppLink rest := by
          rw [hpages]
          apply hpp
        have hrest₁ : ∀ q ∈ rest, q ∈ l ∧ q < 2 ^ 20 := by
          intro q hq
          apply hrest q (List.mem_cons_of_mem p hq)
        apply (ih hpp₁ (by simpa using hn) hrest₁).mono _ (fun _ h => h)
        intro _ s' h'
        apply h₁.trans h'
      rw [spoilPages]
      split
      case isTrue =>
        rw [mayEnd_bind]
        apply (page2kva_mayEnd hlt).mono _ (fun _ h => h)
        rintro kva s₁ ⟨rfl, rfl, -⟩
        rw [mayEnd_bind, mayEnd_modify]
        apply hnext
        apply Spoiled.fill s₁ hmem
      case isFalse =>
        apply hnext
        exact ⟨rfl, fun _ _ _ _ => rfl⟩

/-- What the assertions say of a free page. -/
structure FreePageChecked (npages firstFreePage p : Nat) : Prop where
  lt_npages : p < npages
  ne_zero : p ≠ 0
  ne_iophysmem : p ≠ IOPHYSMEM / PGSIZE
  ne_below_extphysmem : p ≠ EXTPHYSMEM / PGSIZE - 1
  ne_extphysmem : p ≠ EXTPHYSMEM / PGSIZE
  above : EXTPHYSMEM / PGSIZE ≤ p → firstFreePage ≤ KERNBASE + p * PGSIZE
  ne_mpentry : p ≠ MPENTRY_PADDR / PGSIZE

theorem checkFreePage_checked {firstFreePage p : Nat} (hp : p < 2 ^ 20) :
  (checkFreePage firstFreePage p).MayEnd s
    (fun _ s' => s' = s ∧ FreePageChecked s.npages firstFreePage p) (fun _ => False)
  := by
  have hpa := page2pa_toNat hp
  have hzero : page2pa p ≠ 0 → p ≠ 0 := by
    rintro hne rfl
    apply hne rfl
  rw [checkFreePage]
  simp only [mayEnd_bind, mayEnd_get, mayEnd_assertThat]
  intro hlt hne hio hbelow hext
  have hchecked : (EXTPHYSMEM / PGSIZE ≤ p → firstFreePage ≤ KERNBASE + p * PGSIZE) →
      (page2pa p).toNat ≠ MPENTRY_PADDR → FreePageChecked s.npages firstFreePage p := by
    intro habove hmpentry
    rw [hpa] at hio hbelow hext hmpentry
    simp only [IOPHYSMEM, EXTPHYSMEM, MPENTRY_PADDR, PGSIZE] at hio hbelow hext hmpentry
    constructor
    case lt_npages => apply hlt
    case ne_zero => apply hzero hne
    case above => apply habove
    all_goals
      simp only [IOPHYSMEM, EXTPHYSMEM, MPENTRY_PADDR, PGSIZE]
      omega
  split
  case isTrue =>
    rw [mayEnd_bind]
    apply (page2kva_mayEnd hp).mono _ (fun _ h => h)
    rintro kva s₁ ⟨rfl, rfl, -⟩
    rw [mayEnd_bind, mayEnd_assertThat, mayEnd_assertThat]
    intro habove hmpentry
    exact ⟨rfl, hchecked (fun _ => habove) hmpentry⟩
  case isFalse hbase =>
    rw [mayEnd_assertThat]
    intro hmpentry
    constructor
    · rfl
    · apply hchecked _ hmpentry
      intro hle
      rw [hpa] at hbase
      simp only [EXTPHYSMEM, PGSIZE] at hbase hle
      omega

/-- The pages of the list are checked and counted. -/
theorem checkFreePages_checked {firstFreePage a b : Nat} {pp : Option Nat}
    (hpp : Chain (fun p => (s.pages p).ppLink) pp rest) (hn : rest.length < n)
    (hrest : ∀ p ∈ rest, p < 2 ^ 20) :
  (checkFreePages firstFreePage n pp a b).MayEnd s
    (fun r s' => s' = s ∧ (∀ p ∈ rest, FreePageChecked s.npages firstFreePage p)
      ∧ r.1 = a + rest.countP (fun p => decide ((page2pa p).toNat < EXTPHYSMEM))
      ∧ r.2 = b + rest.countP (fun p => !decide ((page2pa p).toNat < EXTPHYSMEM)))
    (fun _ => False)
  := by
  induction rest generalizing n pp a b with
  | nil =>
      obtain ⟨n, rfl⟩ := Nat.exists_eq_succ_of_ne_zero (Nat.ne_zero_of_lt hn)
      obtain rfl : pp = none := hpp
      rw [checkFreePages, mayEnd_pure]
      exact ⟨rfl, fun _ hp => (List.not_mem_nil hp).elim, rfl, rfl⟩
  | cons p rest ih =>
      obtain ⟨n, rfl⟩ := Nat.exists_eq_succ_of_ne_zero (Nat.ne_zero_of_lt hn)
      obtain ⟨rfl, hpp⟩ := hpp
      rw [checkFreePages, mayEnd_bind]
      apply (checkFreePage_checked (hrest p List.mem_cons_self)).mono _ (fun _ h => h)
      rintro _ s₁ ⟨rfl, hp⟩
      rw [mayEnd_bind, mayEnd_get]
      have hrest₁ : ∀ q ∈ rest, q < 2 ^ 20 := by
        intro q hq
        apply hrest q (List.mem_cons_of_mem p hq)
      split
      case isTrue hlow =>
        apply (ih hpp (by simpa using hn) hrest₁).mono _ (fun _ h => h)
        rintro r s₂ ⟨rfl, hall, ha, hb⟩
        refine ⟨rfl, ?_, ?_, ?_⟩
        · apply List.forall_mem_cons.mpr ⟨hp, hall⟩
        · rw [ha, List.countP_cons_of_pos (by simpa using hlow)]
          omega
        · rw [hb, List.countP_cons_of_neg (by simpa using hlow)]
      case isFalse hhigh =>
        apply (ih hpp (by simpa using hn) hrest₁).mono _ (fun _ h => h)
        rintro r s₂ ⟨rfl, hall, ha, hb⟩
        refine ⟨rfl, ?_, ?_, ?_⟩
        · apply List.forall_mem_cons.mpr ⟨hp, hall⟩
        · rw [ha, List.countP_cons_of_neg (by simpa using hhigh)]
        · rw [hb, List.countP_cons_of_pos (by simpa using hhigh)]
          omega

/-- Overwriting pages of a list that is a permutation of the free list. -/
theorem Spoiled.selfTested {l' : List Nat}
    (hl : Chain (fun p => (s.pages p).ppLink) s.pageFreeList l) (h : Relinked l s s')
    (h' : Spoiled l s' s'') (hl' : Chain (fun p => (s'.pages p).ppLink) s'.pageFreeList l')
    (hperm : l'.Perm l) :
  SelfTested s s''
  := by
  have hpages : s''.pages = s'.pages := by rw [h'.others]
  have hhead : s''.pageFreeList = s'.pageFreeList := by rw [h'.others]
  have hmem : s'.mem = s.mem := by rw [h.others]
  constructor
  case quiet =>
    rw [Quiet, h'.others, h.others]
  case lists =>
    use l, l', hl
    rw [hpages, hhead]
    refine ⟨hl', hperm, ?_, ?_⟩
    · intro p _
      apply h.refs
    · intro p hp
      constructor
      · apply h.links p hp
      · intro o ho
        rw [h'.mem p hp o ho, hmem]

/-- The list that is checked is not changed, and has pages on both sides of `EXTPHYSMEM`. -/
theorem spoilAndCheck_checked {nextfree pdxLimit : Nat} {l' : List Nat}
    (hl : Chain (fun p => (s.pages p).ppLink) s.pageFreeList l) (h : Relinked l s s')
    (hl' : Chain (fun p => (s'.pages p).ppLink) s'.pageFreeList l') (hperm : l'.Perm l)
    (hn : l.length < n) (hpages : ∀ p ∈ l, p < 2 ^ 20) :
  (spoilAndCheck n nextfree pdxLimit).MayEnd s' (fun _ s'' => SelfTested s s''
      ∧ Chain (fun p => (s''.pages p).ppLink) s''.pageFreeList l'
      ∧ (∀ p ∈ l, FreePageChecked s.npages nextfree p)
      ∧ (∃ p ∈ l, p < EXTPHYSMEM / PGSIZE) ∧ ∃ p ∈ l, EXTPHYSMEM / PGSIZE ≤ p)
    (fun _ => False)
  := by
  have hn' : l'.length < n := by rw [hperm.length_eq]; apply hn
  have hmem : ∀ p ∈ l', p ∈ l ∧ p < 2 ^ 20 := by
    intro p hp
    rw [hperm.mem_iff] at hp
    exact ⟨hp, hpages p hp⟩
  have hpages' : ∀ p ∈ l', p < 2 ^ 20 := fun p hp => (hmem p hp).2
  rw [spoilAndCheck, mayEnd_bind, mayEnd_get, mayEnd_bind]
  apply (spoilPages_spoils hl' hn' hmem).mono _ (fun _ h => h)
  intro _ s₂ hspoiled
  have hl₂ : Chain (fun p => (s₂.pages p).ppLink) s₂.pageFreeList l' := by
    rw [hspoiled.others]
    apply hl'
  have hnpages : s₂.npages = s.npages := by rw [hspoiled.others, h.others]
  rw [bootAlloc, if_neg (Nat.lt_irrefl 0), pure_bind, mayEnd_bind, mayEnd_get, mayEnd_bind]
  apply (checkFreePages_checked hl₂ hn' hpages').mono _ (fun _ h => h)
  rintro ⟨nfreeBasemem, nfreeExtmem⟩ s₃ ⟨rfl, hall, hbase, hext⟩
  dsimp only at hbase hext
  rw [mayEnd_bind, mayEnd_assertThat, mayEnd_assertThat]
  intro hbase_pos hext_pos
  rw [hbase, Nat.zero_add, List.countP_pos_iff] at hbase_pos
  rw [hext, Nat.zero_add, List.countP_pos_iff] at hext_pos
  obtain ⟨p, hp, hlow⟩ := hbase_pos
  obtain ⟨q, hq, hhigh⟩ := hext_pos
  have hlow' : p < EXTPHYSMEM / PGSIZE := by
    rw [page2pa_toNat (hpages' p hp), decide_eq_true_eq] at hlow
    simp only [EXTPHYSMEM, PGSIZE] at hlow ⊢
    omega
  have hhigh' : EXTPHYSMEM / PGSIZE ≤ q := by
    rw [page2pa_toNat (hpages' q hq), Bool.not_eq_true', decide_eq_false_iff_not] at hhigh
    simp only [EXTPHYSMEM, PGSIZE] at hhigh ⊢
    omega
  refine ⟨hspoiled.selfTested hl h hl' hperm, hl₂, ?_, ⟨p, hperm.mem_iff.mp hp, hlow'⟩,
    q, hperm.mem_iff.mp hq, hhigh'⟩
  intro p hp
  rw [← hnpages]
  apply hall p (hperm.mem_iff.mpr hp)

/-- Whenever the whole check returns, the free list is that partition if low memory is to come first
and the list it was otherwise, and every page on it has passed the assertions. -/
theorem checkPageFreeList_checked (nextfree : Nat) (onlyLowMemory : Bool) (pp1 pp2 : Option Nat)
    (hl : Chain (fun p => (s.pages p).ppLink) s.pageFreeList l) (hn : l.length < n)
    (hpages : ∀ p ∈ l, p < 2 ^ 20) :
  (checkPageFreeList n nextfree onlyLowMemory pp1 pp2).MayEnd s (fun _ s' => SelfTested s s'
      ∧ (∃ l', Chain (fun p => (s'.pages p).ppLink) s'.pageFreeList l'
        ∧ if onlyLowMemory then
            StablePartition (fun p => decide ((page2pa p).toNat < 0x400000)) l l'
          else
            l' = l)
      ∧ (∀ p ∈ l, FreePageChecked s.npages nextfree p)
      ∧ (∃ p ∈ l, p < EXTPHYSMEM / PGSIZE) ∧ ∃ p ∈ l, EXTPHYSMEM / PGSIZE ≤ p)
    (fun _ => False)
  := by
  rw [checkPageFreeList, mayEnd_bind, mayEnd_get]
  split
  · apply mayEnd_panic
  · cases onlyLowMemory with
    | true =>
        obtain ⟨s₁, hrun, hchain, hlinks⟩ := lowPagesFirst_run 1 pp1 pp2 hl hn
        have hpart := lowPagesFirst_order hl.nodup
        rw [if_pos rfl, if_pos rfl, mayEnd_of_bind_eq hrun]
        apply (spoilAndCheck_checked hl hlinks hchain hpart.perm hn hpages).mono _ (fun _ h => h)
        rintro _ s' ⟨htested, hchain', hrest⟩
        exact ⟨htested, ⟨_, hchain', hpart⟩, hrest⟩
    | false =>
        apply (spoilAndCheck_checked hl (Relinked.refl l s) hl (List.Perm.refl l) hn hpages).mono _
          (fun _ h => h)
        rintro _ s' ⟨htested, hchain', hrest⟩
        exact ⟨htested, ⟨l, hchain', rfl⟩, hrest⟩

/-! ### What the check accepts at boot -/

/-- After `page_init` the check accepts base memory that ends before the devices, and free memory
behind the kernel. -/
theorem pageInit_accepted {basemem freeMem nextfree : Nat} {pp1 pp2 : Option Nat}
    (hnone : s.pageFreeList = none) (hnpages : s.npages ≤ 2 ^ 20) (hbase : basemem ≤ s.npages)
    (hfirst : basemem ≤ firstExtPage freeMem) (hn : s.npages < n)
    (hinit : pageInit basemem freeMem s = .ok ((), s'))
    (hcheck : checkPageFreeList n nextfree true pp1 pp2 s' = .ok ((), s'')) :
  basemem ≤ IOPHYSMEM / PGSIZE ∧ firstExtPage freeMem < s.npages ∧ SelfTested s' s''
  := by
  obtain ⟨_, s₁, hinit₁, l, hl, hmem⟩ := (pageInit_ok (E := False) hnone hfirst).returns id
  obtain ⟨-, rfl⟩ := ok_inj hinit hinit₁
  have hlt : ∀ p ∈ l, p < s.npages := by
    intro p hp
    obtain ⟨-, ⟨-, h⟩ | ⟨-, h⟩⟩ := (hmem p).mp hp
    · omega
    · apply h
  have hlength : l.length < n := by
    have hsub := (hl.nodup.subperm (fun p hp => List.mem_range.mpr (hlt p hp))).length_le
    rw [List.length_range] at hsub
    omega
  obtain ⟨htested, -, hall, -, q, hq, hext⟩ := (checkPageFreeList_checked nextfree true pp1 pp2
    hl.chain hlength (fun p hp => Nat.lt_of_lt_of_le (hlt p hp) hnpages)).of_eq hcheck
  have hle : basemem ≤ IOPHYSMEM / PGSIZE := by
    by_contra hgt
    -- the first page of the devices would be free
    have hio : IOPHYSMEM / PGSIZE ∈ l := by
      rw [hmem]
      constructor
      · decide
      · left
        constructor
        · decide
        · omega
    apply (hall _ hio).ne_iophysmem rfl
  refine ⟨hle, ?_, htested⟩
  obtain ⟨-, ⟨-, h⟩ | ⟨h, h'⟩⟩ := (hmem q).mp hq
  · have hdevices : IOPHYSMEM / PGSIZE < EXTPHYSMEM / PGSIZE := by decide
    omega
  · omega

/-- Whatever is allocated before, `page_init` is the last step of setting up the arrays. -/
theorem memInitArrays_pageInit (b : BootInfo) (hnone : s.pageFreeList = none) :
  (memInitArrays b).MayEnd s (fun a s' => ∃ s₁, s₁.pageFreeList = none ∧ s₁.npages = b.npages
    ∧ pageInit b.npagesBasemem a.nextfree s₁ = .ok ((), s')) (fun _ => True)
  := by
  have halloc : ∀ nextfree k (s₁ : Kernel), (bootAlloc nextfree k).MayEnd s₁
      (fun _ s' => s' = s₁) (fun _ => True) := by
    intro nextfree k s₁
    rw [bootAlloc]
    split
    · split
      · apply mayEnd_panic
      · rw [mayEnd_pure]
    · rw [mayEnd_pure]
  have hdir : ∀ (s₁ : Kernel) p i w, (({ s₁.zeroPage p with kernPgdir := p } : Kernel).setEntry p i
      w).pageFreeList = s₁.pageFreeList ∧ (({ s₁.zeroPage p with kernPgdir := p } : Kernel).setEntry
      p i w).npages = s₁.npages := fun _ _ _ _ => ⟨rfl, rfl⟩
  rw [memInitArrays, mayEnd_bind, mayEnd_modify, mayEnd_bind]
  apply (halloc _ _ _).mono _ (fun _ h => h)
  rintro ⟨kernPgdir, nextfree⟩ s₁ hs₁
  have hnone₁ : s₁.pageFreeList = none := by
    rw [hs₁]
    apply hnone
  have hnpages₁ : s₁.npages = b.npages := by rw [hs₁]
  rw [mayEnd_bind, mayEnd_modify, mayEnd_bind, mayEnd_modify, mayEnd_bind]
  apply (halloc _ _ _).mono _ (fun _ h => h)
  rintro ⟨pages, nextfree⟩ s₂ hs₂
  have hnone₂ : s₂.pageFreeList = none := by
    rw [hs₂, (hdir _ _ _ _).1]
    apply hnone₁
  have hnpages₂ : s₂.npages = b.npages := by
    rw [hs₂, (hdir _ _ _ _).2]
    apply hnpages₁
  rw [mayEnd_bind, mayEnd_modify, mayEnd_bind]
  apply (halloc _ _ _).mono _ (fun _ h => h)
  rintro ⟨envs, nextfree⟩ s₃ hs₃
  rw [mayEnd_bind]
  apply mayEnd_run.mono _ (fun _ h => h)
  intro _ s' hinit
  rw [mayEnd_pure]
  refine ⟨s₃, ?_, ?_, hinit⟩
  · rw [hs₃]
    apply hnone₂
  · rw [hs₃]
    apply hnpages₂

/-- What the check of low memory first says of the arrays that were set up, if it returns. -/
theorem memInit_freeListChecked {b : BootInfo} {a : BootArrays} {pp1 pp2 : Option Nat}
    (hnone : s.pageFreeList = none) (hbase : b.npagesBasemem ≤ b.npages)
    (hfirst : b.npagesBasemem ≤ firstExtPage a.nextfree) (hn : b.npages < n)
    (harr : memInitArrays b s = .ok (a, s'))
    (hcheck : checkPageFreeList n a.nextfree true pp1 pp2 s' = .ok ((), s'')) :
  FreeListChecked b a ∧ SelfTested s' s''
  := by
  obtain ⟨s₁, hnone₁, hnpages, hinit⟩ := (memInitArrays_pageInit b hnone).of_eq harr
  rw [← hnpages] at hbase hn
  obtain ⟨hle, hlt, htested⟩ := pageInit_accepted hnone₁ (by rw [hnpages]; apply b.npages_le) hbase
    hfirst hn hinit hcheck
  rw [hnpages] at hlt
  exact ⟨⟨hle, hlt⟩, htested⟩

end Jos
