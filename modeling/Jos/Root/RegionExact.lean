import Jos.Root.Program
import Jos.Root.First

/-!
# How many pages a region takes

`region_alloc` for any range below `UTOP`, and what it does to the pages of the kernel to the last
one.  A page of the range is allocated and mapped once for each of its bytes, so that there is one
page more in flight than there are in the end: with just as many free pages as the range takes it
panics.  Addresses are compared as signed numbers, so that nothing is done for a range from the
lower half of the addresses to the upper one.

The pages that are in use are those slots refer to.  In the end the slots of the range have pages of
their own, and the others what they had, which gives the number of pages that are left.
-/

namespace Jos

namespace Root

open Bytes Prog

variable {avail held : Finset Nat} {e : Fin NENV} {pg : Nat} {s s0 s' : Kernel}

/-! ### What a range takes -/

/-- The slots of the environment `e` for the `c` pages from the page number `B` on. -/
def pageSlots (e : Fin NENV) (B c : Nat) : Finset Slot :=
  Finset.univ.filter (fun x => ∃ d t, x = .page e d t
    ∧ B ≤ d.val * 1024 + t.val ∧ d.val * 1024 + t.val < B + c)

/-- The slots for the page tables that these pages do not have. -/
def missingTables (s : Kernel) (e : Fin NENV) (B c : Nat) : Finset Slot :=
  Finset.univ.filter (fun x => ∃ d, x = .table e d ∧ s.slotRef x = none
    ∧ ∃ n ∈ Finset.Ico B (B + c), n / 1024 = d.val)

/-- The pages that are mapped at these pages, and nowhere else. -/
def releasedPages (s : Kernel) (e : Fin NENV) (B c : Nat) : Finset Nat :=
  onlyFrom slots (pageSlots e B c) s.slotRef

/-- There are `n` free pages. -/
def FreePages (s : Kernel) (n : Nat) : Prop :=
  ∃ l, Chain (fun p => (s.pages p).ppLink) s.pageFreeList l ∧ l.length = n

theorem mem_pageSlots {B c : Nat} {a : PteAddr} :
  pageSlot a ∈ pageSlots e B c
    ↔ a.1 = e ∧ B ≤ a.2.1.val * 1024 + a.2.2.val ∧ a.2.1.val * 1024 + a.2.2.val < B + c
  := by
  rw [pageSlots, Finset.mem_filter]
  constructor
  · rintro ⟨-, d, t, heq, hlo, hhi⟩
    obtain ⟨rfl, rfl, rfl⟩ := Slot.page.inj heq
    exact ⟨rfl, hlo, hhi⟩
  · rintro ⟨rfl, hlo, hhi⟩
    exact ⟨Finset.mem_univ _, a.2.1, a.2.2, rfl, hlo, hhi⟩

theorem mem_missingTables {B c : Nat} {e' : Fin NENV} {d : Fin NUPDE} :
  Slot.table e' d ∈ missingTables s e B c
    ↔ e' = e ∧ s.slotRef (.table e' d) = none ∧ ∃ n ∈ Finset.Ico B (B + c), n / 1024 = d.val
  := by
  rw [missingTables, Finset.mem_filter]
  constructor
  · rintro ⟨-, d', heq, hnone, hn⟩
    obtain ⟨rfl, rfl⟩ := Slot.table.inj heq
    exact ⟨rfl, hnone, hn⟩
  · rintro ⟨rfl, hnone, hn⟩
    exact ⟨Finset.mem_univ _, d, rfl, hnone, hn⟩

/-- The page number a slot is for. -/
def slotPage : Slot → Nat
  | .page _ d t => d.val * 1024 + t.val
  | _ => 0

/-- There are as many slots as pages. -/
theorem card_pageSlots {B c : Nat} (h : B + c ≤ NUPDE * 1024) :
  (pageSlots e B c).card = c
  := by
  have hinj : Set.InjOn slotPage (pageSlots e B c) := by
    intro x hx y hy heq
    obtain ⟨-, d, t, rfl, -⟩ := Finset.mem_filter.mp hx
    obtain ⟨-, d', t', rfl, -⟩ := Finset.mem_filter.mp hy
    have ht : t.val < 1024 := t.isLt
    have ht' : t'.val < 1024 := t'.isLt
    simp only [slotPage] at heq
    obtain rfl : d = d' := Fin.ext (by omega)
    obtain rfl : t = t' := Fin.ext (by omega)
    rfl
  have himage : (pageSlots e B c).image slotPage = Finset.Ico B (B + c) := by
    ext n
    rw [Finset.mem_image, Finset.mem_Ico]
    constructor
    · rintro ⟨x, hx, rfl⟩
      obtain ⟨-, d, t, rfl, hlo, hhi⟩ := Finset.mem_filter.mp hx
      exact ⟨hlo, hhi⟩
    · rintro ⟨hlo, hhi⟩
      have hn : n / 1024 * 1024 + n % 1024 = n := by omega
      refine ⟨pageSlot (e, ⟨n / 1024, by omega⟩, ⟨n % 1024, Nat.mod_lt _ (by decide)⟩), ?_, hn⟩
      rw [mem_pageSlots]
      simp only
      rw [hn]
      exact ⟨trivial, hlo, hhi⟩
  rw [← Finset.card_image_of_injOn hinj, himage, Nat.card_Ico]
  omega

/-- More pages have more slots. -/
theorem regionSlots_mono (s : Kernel) (e : Fin NENV) {B c c' : Nat} (h : c ≤ c') :
  pageSlots e B c ∪ missingTables s e B c ⊆ pageSlots e B c' ∪ missingTables s e B c'
  := by
  intro x hx
  obtain hx | hx := Finset.mem_union.mp hx
  · obtain ⟨-, d, t, rfl, hlo, hhi⟩ := Finset.mem_filter.mp hx
    apply Finset.mem_union_left
    exact Finset.mem_filter.mpr ⟨Finset.mem_univ _, d, t, rfl, hlo, by omega⟩
  · obtain ⟨-, d, rfl, hnone, n, hin, hd⟩ := Finset.mem_filter.mp hx
    rw [Finset.mem_Ico] at hin
    apply Finset.mem_union_right
    exact mem_missingTables.mpr ⟨rfl, hnone, n, Finset.mem_Ico.mpr ⟨hin.1, by omega⟩, hd⟩

/-- The slots for pages and for page tables are different. -/
theorem disjoint_missingTables (s : Kernel) (e : Fin NENV) (B c : Nat) :
  Disjoint (pageSlots e B c) (missingTables s e B c)
  := by
  rw [Finset.disjoint_left]
  intro x hx hx'
  obtain ⟨-, d, t, rfl, -⟩ := Finset.mem_filter.mp hx
  obtain ⟨-, d', heq, -⟩ := Finset.mem_filter.mp hx'
  cases heq

/-- A missing page table releases nothing. -/
theorem onlyFrom_missingTables (s : Kernel) (e : Fin NENV) (B c : Nat) :
  onlyFrom slots (pageSlots e B c ∪ missingTables s e B c) s.slotRef = releasedPages s e B c
  := by
  ext p
  rw [releasedPages, mem_onlyFrom, mem_onlyFrom]
  apply and_congr_right
  intro _
  constructor
  · intro h x hx hr
    obtain hpage | htable := Finset.mem_union.mp (h x hx hr)
    · exact hpage
    · obtain ⟨-, d, rfl, hnone, -⟩ := Finset.mem_filter.mp htable
      rw [hnone] at hr
      cases hr
  · intro h x hx hr
    exact Finset.mem_union_left _ (h x hx hr)

/-- The pages that are not in use are free. -/
theorem Wf.freePages (h : Wf avail ∅ s) {n : Nat} (hn : FreePages s n) :
  n + (refUsed slots s.slotRef).card = avail.card
  := by
  obtain ⟨l, hl⟩ := h.mem
  obtain ⟨l', hl', rfl⟩ := hn
  obtain rfl := hl'.unique hl.chain
  have hsub : refUsed slots s.slotRef ⊆ avail := by
    intro p hp
    obtain ⟨x, -, hx⟩ := mem_refUsed.mp hp
    exact Kernel.mem_avail hl hx
  have heq : l'.toFinset = avail \ refUsed slots s.slotRef := by
    ext p
    rw [mem_free_iff hl, h.free_iff, Finset.mem_sdiff, mem_refUsed]
    apply and_congr_right
    intro _
    constructor
    · rintro ⟨-, hall⟩ ⟨x, -, hx⟩
      exact hall x hx
    · intro hall
      exact ⟨Finset.notMem_empty p, fun x hx => hall ⟨x, mem_slots x, hx⟩⟩
  have hnodup : l'.Nodup := hl.balanced.nodup
  rw [← List.toFinset_card_of_nodup hnodup, heq, Finset.card_sdiff_of_subset hsub]
  exact Nat.sub_add_cancel (Finset.card_le_card hsub)

theorem Wf.exists_freePages (h : Wf avail ∅ s) :
  ∃ n, FreePages s n
  := by
  obtain ⟨l, hl⟩ := h.mem
  exact ⟨l.length, l, hl.chain, rfl⟩

/-! ### Making a range anew -/

/-- In `s` the `c` pages from `B` on are mapped to pages of their own, and have page tables where
they had none in `s0`. Everything else refers to what it referred to in `s0`. -/
structure OwnSlots (e : Fin NENV) (B c : Nat) (s0 s : Kernel) : Prop where
  others : ∀ x, x ∉ pageSlots e B c ∪ missingTables s0 e B c → s.slotRef x = s0.slotRef x
  sole : ∀ x ∈ pageSlots e B c ∪ missingTables s0 e B c,
    ∃ p, s.slotRef x = some p ∧ ∀ y, s.slotRef y = some p → y = x

namespace OwnSlots

variable {B c : Nat}

/-- The pages that are left. -/
theorem freePages (h : OwnSlots e B c s0 s) (hs0 : Wf avail ∅ s0) (hs : Wf avail ∅ s) {n0 n : Nat}
    (hn0 : FreePages s0 n0) (hn : FreePages s n) :
  n + ((pageSlots e B c).card + (missingTables s0 e B c).card) = n0 + (releasedPages s0 e B c).card
  := by
  have hused : (refUsed slots s.slotRef).card
      + (onlyFrom slots (pageSlots e B c ∪ missingTables s0 e B c) s0.slotRef).card
      = (refUsed slots s0.slotRef).card + (pageSlots e B c ∪ missingTables s0 e B c).card := by
    apply card_refUsed_replace (fun x _ => mem_slots x) (fun x _ hx => h.others x hx)
    intro x hx
    obtain ⟨p, hp, hall⟩ := h.sole x hx
    exact ⟨p, hp, fun y _ => hall y⟩
  rw [onlyFrom_missingTables, Finset.card_union_of_disjoint (disjoint_missingTables s0 e B c)]
    at hused
  have h0 := hs0.freePages hn0
  have h1 := hs.freePages hn
  omega

/-- A range takes no less than its first pages: one page more for each that had none. -/
theorem short (h : OwnSlots e B c s0 s) (hs0 : Wf avail ∅ s0) (hs : Wf avail ∅ s) {P n0 n : Nat}
    (hn0 : FreePages s0 n0) (hn : FreePages s n) (hP : c ≤ P) :
  n0 + (releasedPages s0 e B P).card
      + (((pageSlots e B P ∪ missingTables s0 e B P) \ (pageSlots e B c ∪ missingTables s0 e B c)).filter
        (fun x => s0.slotRef x = none)).card
    ≤ n + ((pageSlots e B P).card + (missingTables s0 e B P).card)
  := by
  have hfree := h.freePages hs0 hs hn0 hn
  have hsub := regionSlots_mono s0 e (B := B) hP
  have hle : (onlyFrom slots (pageSlots e B P ∪ missingTables s0 e B P) s0.slotRef).card
      ≤ (onlyFrom slots (pageSlots e B c ∪ missingTables s0 e B c) s0.slotRef).card
        + (((pageSlots e B P ∪ missingTables s0 e B P) \ (pageSlots e B c ∪ missingTables s0 e B c)).filter
          (fun x => ¬ s0.slotRef x = none)).card := card_onlyFrom_le
  rw [onlyFrom_missingTables, onlyFrom_missingTables] at hle
  have hsplit := Finset.card_filter_add_card_filter_not (s := (pageSlots e B P
    ∪ missingTables s0 e B P) \ (pageSlots e B c ∪ missingTables s0 e B c))
    (fun x => s0.slotRef x = none)
  have hdiff := Finset.card_sdiff_add_card_eq_card hsub
  rw [Finset.card_union_of_disjoint (disjoint_missingTables s0 e B c),
    Finset.card_union_of_disjoint (disjoint_missingTables s0 e B P)] at hdiff
  omega

end OwnSlots

/-- From `s0` to `s` the `c` pages from `B` on were mapped to pages of their own. -/
structure Remade (e : Fin NENV) (B c : Nat) (s0 s : Kernel) : Prop extends OwnSlots e B c s0 s where
  ptes : ∀ a, pageSlot a ∉ pageSlots e B c → s.ptes a = s0.ptes a
  made : ∀ a, pageSlot a ∈ pageSlots e B c → ∃ p < 2 ^ 20, s.ptes a = regionPte p
  pgdir : ∀ e', s.pgdir e' = s0.pgdir e'

namespace Remade

variable {B c : Nat}

theorem refl (e : Fin NENV) (B : Nat) (s : Kernel) :
  Remade e B 0 s s
  := by
  have hnone : ∀ a, pageSlot a ∉ pageSlots e B 0 := by
    intro a ha
    obtain ⟨-, hlo, hhi⟩ := mem_pageSlots.mp ha
    omega
  constructor
  case toOwnSlots =>
    constructor
    case others => exact fun _ _ => rfl
    case sole =>
      intro x hx
      obtain hx | hx := Finset.mem_union.mp hx
      · obtain ⟨-, d, t, rfl, hlo, hhi⟩ := Finset.mem_filter.mp hx
        omega
      · obtain ⟨-, d, rfl, -, n, hn, -⟩ := Finset.mem_filter.mp hx
        rw [Finset.mem_Ico] at hn
        omega
  case ptes => exact fun _ _ => rfl
  case made => exact fun a ha => (hnone a ha).elim
  case pgdir => exact fun _ => rfl

/-- A page is mapped in the range, behind the pages so far or in the place of the last one. -/
theorem inserted {va : Word} {hva : va.toNat < UTOP} {p c' : Nat} (h : Remade e B c s0 s)
    (hs : Wf avail ∅ s) (hi : Inserted avail e va hva p s s') (hn : va.toNat / 4096 + 1 = B + c')
    (hc : c ≤ c') (hc' : c' ≤ c + 1) (hpos : 0 < c') :
  Remade e B c' s0 s'
  := by
  obtain ⟨l', hl'⟩ := hi.wf.mem
  have hpage : PDX va * 1024 + PTX va = va.toNat / 4096 := by
    rw [PDX_eq, PTX_eq]
    omega
  have hself : pageSlot (pteAddr e va hva) ∈ pageSlots e B c' := by
    rw [mem_pageSlots]
    simp only [pteAddr]
    rw [hpage]
    exact ⟨trivial, by omega, by omega⟩
  have hmono : ∀ a, pageSlot a ∈ pageSlots e B c → pageSlot a ∈ pageSlots e B c' := by
    intro a ha
    obtain ⟨h1, h2, h3⟩ := mem_pageSlots.mp ha
    exact mem_pageSlots.mpr ⟨h1, h2, by omega⟩
  have hback : ∀ a, pageSlot a ∈ pageSlots e B c' → a ≠ pteAddr e va hva →
      pageSlot a ∈ pageSlots e B c := by
    rintro ⟨e', d, t⟩ ha hne
    obtain ⟨h1, h2, h3⟩ := mem_pageSlots.mp ha
    simp only at h1 h2 h3
    have ht : t.val < 1024 := t.isLt
    have htx := PTX_lt va
    refine mem_pageSlots.mpr ⟨h1, h2, ?_⟩
    simp only
    by_contra hge
    apply hne
    rw [h1, pteAddr]
    simp only [Prod.mk.injEq, true_and]
    exact ⟨Fin.ext (by simp only; omega), Fin.ext (by simp only; omega)⟩
  have hsub := regionSlots_mono s0 e (B := B) hc
  -- the page table of the address is there now
  have hnew : ∃ q, s'.slotRef (.table e ⟨PDX va, PDX_lt_of_lt_UTOP hva⟩) = some q := by
    apply Option.ne_none_iff_exists'.mp
    intro hnone
    have hnone' : refOf (s'.pde e (PDX va)) = none := hnone
    have hp := hi.slot_self
    rw [slotRef_pageSlot, ptes_pteAddr, Kernel.pteAt, Kernel.pte, hnone', refOf_zero] at hp
    cases hp
  constructor
  case toOwnSlots =>
    constructor
    case others =>
      intro x hx
      have hold := h.others x (fun hx' => hx (hsub hx'))
      rw [← hold]
      have hne : x ≠ pageSlot (pteAddr e va hva) := by
        rintro rfl
        exact hx (Finset.mem_union_left _ hself)
      cases hr : s.slotRef x with
      | some q => exact hi.slot_kept hr hne
      | none =>
          by_contra hsome
          obtain ⟨q, hq⟩ := Option.ne_none_iff_exists'.mp hsome
          obtain ⟨heq, -⟩ | ⟨rfl, -⟩ | ⟨-, hq'⟩ := hi.slot hq
          · exact hne heq
          · apply hx
            apply Finset.mem_union_right
            refine mem_missingTables.mpr ⟨rfl, hold ▸ hr, va.toNat / 4096,
              Finset.mem_Ico.mpr ⟨by omega, by omega⟩, ?_⟩
            have htx := PTX_lt va
            simp only
            omega
          · rw [hr] at hq'
            cases hq'
    case sole =>
      intro x hx
      by_cases hxself : x = pageSlot (pteAddr e va hva)
      · rw [hxself]
        exact ⟨p, hi.slot_self, hi.sole hs⟩
      · obtain hx | hx := Finset.mem_union.mp hx
        · obtain ⟨-, d, t, rfl, -⟩ := Finset.mem_filter.mp hx
          have hin := hback (e, d, t) hx (fun heq => hxself (by rw [← heq]; rfl))
          obtain ⟨q, hq, hall⟩ := h.sole _ (Finset.mem_union_left _ hin)
          use q, hi.slot_kept hq hxself
          intro y hy
          obtain ⟨-, rfl⟩ | ⟨rfl, -⟩ | ⟨-, hold⟩ := hi.slot hy
          · exact (hs.not_ref_of_free hi.free _ hq).elim
          · exact (hl'.balanced.owned (.table e _) (.page e d t) q trivial hy
              (hi.slot_kept hq hxself)).symm
          · exact hall y hold
        · obtain ⟨-, d, rfl, hnone, n, hin, hd⟩ := Finset.mem_filter.mp hx
          have hsome : ∃ q, s'.slotRef (.table e d) = some q := by
            cases hr : s.slotRef (.table e d) with
            | some q => exact ⟨q, hi.slot_kept hr hxself⟩
            | none =>
                rw [Finset.mem_Ico] at hin
                by_cases hlast : n < B + c
                · obtain ⟨q, hq, -⟩ := h.sole (.table e d) (Finset.mem_union_right _
                    (mem_missingTables.mpr ⟨rfl, hnone, n, Finset.mem_Ico.mpr ⟨hin.1, hlast⟩, hd⟩))
                  rw [hr] at hq
                  cases hq
                · have htx := PTX_lt va
                  have hdx : d = ⟨PDX va, PDX_lt_of_lt_UTOP hva⟩ := Fin.ext (by simp only; omega)
                  rw [hdx]
                  exact hnew
          obtain ⟨q, hq⟩ := hsome
          exact ⟨q, hq, fun y hy => hl'.balanced.owned (.table e d) y q trivial hq hy⟩
  case ptes =>
    intro a ha
    rw [hi.edit.ptes, Function.update_of_ne]
    · exact h.ptes a (fun ha' => ha (hmono a ha'))
    · rintro rfl
      exact ha hself
  case made =>
    intro a ha
    rw [hi.edit.ptes]
    by_cases haself : a = pteAddr e va hva
    · rw [haself, Function.update_self]
      exact ⟨p, hi.lt, rfl⟩
    · rw [Function.update_of_ne haself]
      exact h.made a (hback a ha haself)
  case pgdir =>
    intro e'
    rw [hi.edit.quiet.pgdir, h.pgdir]

end Remade

/-! ### The loop -/

/-- With no more free pages than the range takes it cannot be allocated. -/
def Short (e : Fin NENV) (B P : Nat) (s0 : Kernel) : Prop :=
  ∃ n0, FreePages s0 n0 ∧ n0 + (releasedPages s0 e B P).card
    ≤ (pageSlots e B P).card + (missingTables s0 e B P).card

/-- After `k` bytes of a range: its pages so far are made anew, and one page is free when a page was
mapped again. Or no page is free, in the middle of a page. -/
def RegionTurn (avail : Finset Nat) (e : Fin NENV) (pg : Nat) (s0 : Kernel) (B P k : Nat)
    (s : Kernel) : Prop :=
  (Wf avail ∅ s ∧ Fits avail s ∧ s.pgdir e = some pg ∧ Remade e B ((k + 4095) / 4096) s0 s
    ∧ (k ≠ 0 → k % 4096 ≠ 1 → s.pageFreeList ≠ none))
  ∨ (Short e B P s0 ∧ s.pageFreeList = none ∧ k % 4096 ≠ 0)

theorem freePages_zero (h : s.pageFreeList = none) :
  FreePages s 0
  := ⟨[], h, rfl⟩

section Loop

variable {B P : Nat} (hregion : 4096 * (B + P) ≤ UTOP) (hs0 : Wf avail ∅ s0)
include hregion hs0

/-- One byte more. -/
theorem regionTurn_step {k : Nat} (hk : k < 4096 * P) (h : RegionTurn avail e pg s0 B P k s) :
  (regionAllocAt pg (BitVec.ofNat 32 (4096 * B) + BitVec.ofNat 32 k)).ReturnsOr
    "Error happened in region alloc" (Short e B P s0) s
    (fun _ s' => RegionTurn avail e pg s0 B P (k + 1) s')
  := by
  obtain ⟨n0, hn0⟩ := hs0.exists_freePages
  obtain ⟨hs, hfits, hpg, hmade, hroom⟩ | ⟨hE, hnone, -⟩ := h
  · have hva := regionVa_lt hregion hk
    have hnat := regionVa_toNat hregion hk
    have hpage : (BitVec.ofNat 32 (4096 * B) + BitVec.ofNat 32 k).toNat / 4096 = B + k / 4096 := by
      rw [hnat]
      omega
    have hidx : PDX (BitVec.ofNat 32 (4096 * B) + BitVec.ofNat 32 k) * 1024
        + PTX (BitVec.ofNat 32 (4096 * B) + BitVec.ofNat 32 k) = B + k / 4096 := by
      rw [← hpage, PDX_eq, PTX_eq]
      omega
    -- in the middle of a page the page is one that was made anew
    have hself : ∀ c, k / 4096 < c →
        pageSlot (pteAddr e (BitVec.ofNat 32 (4096 * B) + BitVec.ofNat 32 k) hva)
          ∈ pageSlots e B c := by
      intro c hc
      rw [mem_pageSlots]
      simp only [pteAddr]
      rw [hidx]
      exact ⟨trivial, by omega, by omega⟩
    have hlast : k % 4096 ≠ 0 → ∃ p, s.slotRef (pageSlot (pteAddr e _ hva)) = some p
        ∧ ∀ y, s.slotRef y = some p → y = pageSlot (pteAddr e _ hva) := by
      intro hne
      exact hmade.sole _ (Finset.mem_union_left _ (hself _ (by omega)))
    obtain ⟨hnone, heq⟩ | ⟨s', heq, hnone, hfew, htable⟩ | ⟨p, s', heq, hins⟩ :=
      regionAllocAt_cases hs hfits hpg hva
    · -- no page was free
      have hshort := hmade.short (P := P) hs0 hs hn0 (freePages_zero hnone) (by omega)
      exact Or.inr ⟨heq, n0, hn0, by omega⟩
    · -- the last free page was taken, and there was none for the page table
      left
      have hstart : k % 4096 = 0 :=
        regionStart hva (fun hne => (hlast hne).imp fun _ hp => hp.1) htable
      refine ⟨(), s', heq, Or.inr ⟨?_, hnone, by omega⟩⟩
      obtain ⟨n, hn⟩ := hs.exists_freePages
      have hn1 : n ≤ 1 := by
        by_contra hgt
        obtain ⟨l, hl, rfl⟩ := hn
        exact hfew ⟨l, hl, by omega⟩
      have hc : (k + 4095) / 4096 = k / 4096 := by omega
      rw [hc] at hmade
      have hshort := hmade.short (P := P) hs0 hs hn0 hn (by omega)
      have hnot : pageSlot (pteAddr e (BitVec.ofNat 32 (4096 * B) + BitVec.ofNat 32 k) hva)
          ∉ pageSlots e B (k / 4096) ∪ missingTables s0 e B (k / 4096) := by
        intro hin
        obtain hin | hin := Finset.mem_union.mp hin
        · obtain ⟨-, -, hlt⟩ := mem_pageSlots.mp hin
          simp only [pteAddr] at hlt
          omega
        · obtain ⟨-, d, hd, -⟩ := Finset.mem_filter.mp hin
          cases hd
      have hempty : s0.slotRef (pageSlot (pteAddr e _ hva)) = none := by
        rw [← hmade.others _ hnot, slotRef_pageSlot, ptes_pteAddr, Kernel.pteAt, Kernel.pte]
        have hnone' : refOf (s.pde e (PDX _)) = none := htable
        rw [hnone', refOf_zero]
      have hone : 0 < (((pageSlots e B P ∪ missingTables s0 e B P)
          \ (pageSlots e B (k / 4096) ∪ missingTables s0 e B (k / 4096))).filter
          (fun x => s0.slotRef x = none)).card := by
        apply Finset.card_pos.mpr
        refine ⟨pageSlot (pteAddr e _ hva), Finset.mem_filter.mpr ⟨?_, hempty⟩⟩
        exact Finset.mem_sdiff.mpr ⟨Finset.mem_union_left _ (hself P (by omega)), hnot⟩
      exact ⟨n0, hn0, by omega⟩
    · -- a page was mapped
      left
      refine ⟨(), s', heq, Or.inl ⟨hins.wf, hins.fits hs hfits, ?_, ?_, ?_⟩⟩
      · rw [hins.edit.quiet.pgdir, hpg]
      · exact hmade.inserted hs hins (by omega) (by omega) (by omega) (by omega)
      · intro _ hne
        obtain ⟨p1, hp1, hsole⟩ := hlast (by omega)
        obtain ⟨l, hl, hmem⟩ := hins.free
        have hfree : HasFree 1 s := ⟨l, hl, List.length_pos_of_mem hmem⟩
        exact pageFreeList_of_hasFree (hins.hasFree_again hs hp1 hsole hfree)
  · -- the loop got here with no page free
    exact Or.inr ⟨regionAllocAt_none hnone, hE⟩

/-- A range of pages is allocated when more pages are free than it takes. -/
theorem regionLoop_exact (hfits : Fits avail s0) (hpg : s0.pgdir e = some pg) (hP : 0 < P) :
  (forUp 0 (4096 * P) (fun k =>
    regionAllocAt pg (BitVec.ofNat 32 (4096 * B) + BitVec.ofNat 32 k))).ReturnsOr
    "Error happened in region alloc" (Short e B P s0) s0
    (fun _ s' => Wf avail ∅ s' ∧ Remade e B P s0 s' ∧ s'.pageFreeList ≠ none)
  := by
  have hloop : (forUp 0 (4096 * P) (fun k =>
      regionAllocAt pg (BitVec.ofNat 32 (4096 * B) + BitVec.ofNat 32 k))).ReturnsOr
      "Error happened in region alloc" (Short e B P s0) s0
      (fun _ s' => RegionTurn avail e pg s0 B P (0 + 4096 * P) s') := by
    apply ReturnsOr.forUp (RegionTurn avail e pg s0 B P)
    · intro k s _ hk h
      exact regionTurn_step hregion hs0 (by omega) h
    · exact Or.inl ⟨hs0, hfits, hpg, .refl e B s0, fun hne => (hne rfl).elim⟩
  obtain ⟨_, s', heq, ⟨hs, -, -, hmade, hroom⟩ | ⟨-, -, hne⟩⟩ | herr := hloop
  · left
    refine ⟨(), s', heq, hs, ?_, hroom (by omega) (by omega)⟩
    have hc : (0 + 4096 * P + 4095) / 4096 = P := by omega
    rw [hc] at hmade
    exact hmade
  · omega
  · exact Or.inr herr

end Loop

/-! ### What a range is mapped to -/

/-- Whether the page `p` is mapped at `va` for the environment with the directory `pg` to write. -/
def MapsTo (s : Kernel) (pg : Nat) (va : Word) (p : Nat) : Prop :=
  s.translate pg va = some (p * PGSIZE + PGOFF va) ∧ s.userWritable pg va = true

/-- The pages of a range are mapped, each to a page of its own. -/
structure RegionMapped (pg : Nat) (va len : Word) (s : Kernel) : Prop where
  page : ∀ a : Word, InRegion va len a → ∃ p, MapsTo s pg a p ∧ (s.pages p).ppRef = 1
  distinct : ∀ (a a' : Word) (p : Nat), InRegion va len a → InRegion va len a' → MapsTo s pg a p →
    MapsTo s pg a' p → a.toNat / 4096 = a'.toNat / 4096

/-- From `s` to `s'` a range was mapped for the environment `e`: its pages are mapped, nothing else
is changed for any environment, and the free pages are fewer by the pages mapped and the page
tables made, less the pages that were given back. -/
structure RegionExact (e : Fin NENV) (pg : Nat) (va len : Word) (s s' : Kernel) : Prop where
  mapped : RegionMapped pg va len s'
  others : ∀ (e' : Fin NENV) pg', s.pgdir e' = some pg' → s'.pgdir e' = some pg'
    ∧ ∀ a : Word, a.toNat < UTOP → e' ≠ e ∨ ¬ InRegion va len a →
      s'.translate pg' a = s.translate pg' a ∧ s'.userReadable pg' a = s.userReadable pg' a
        ∧ s'.userWritable pg' a = s.userWritable pg' a
  count : ∀ n n', FreePages s n → FreePages s' n' →
    n' + (regionPages va len + (missingTables s e (va.toNat / 4096) (regionPages va len)).card)
      = n + (releasedPages s e (va.toNat / 4096) (regionPages va len)).card

/-- What is asked of a run of `region_alloc`: it returns with the range mapped, or it panics with
fewer free pages than that takes. -/
def RegionMeets (e : Fin NENV) (pg : Nat) (va len : Word) (s : Kernel)
    (r : Except (Stop Kernel) (Unit × Kernel)) : Prop :=
  match r with
  | .ok (_, s') => RegionExact e pg va len s s'
  | .error (.panic _) => ∀ n, FreePages s n →
      n + (releasedPages s e (va.toNat / 4096) (regionPages va len)).card
        < regionPages va len + (missingTables s e (va.toNat / 4096) (regionPages va len)).card
  | .error _ => False

/-- The slot of an address in a range is one of the range. -/
theorem mem_pageSlots_va {e' : Fin NENV} {va len a : Word} (ha : a.toNat < UTOP) :
  pageSlot (pteAddr e' a ha) ∈ pageSlots e (va.toNat / 4096) (regionPages va len)
    ↔ e' = e ∧ InRegion va len a
  := by
  have hidx : PDX a * 1024 + PTX a = a.toNat / 4096 := by
    rw [PDX_eq, PTX_eq]
    omega
  rw [mem_pageSlots]
  simp only [pteAddr]
  rw [hidx, InRegion]

/-- The pages of a range below `UTOP` are below `UTOP`. -/
theorem InRegion.lt_UTOP {va len a : Word} (h : InRegion va len a)
    (htop : va.toNat + len.toNat ≤ UTOP) :
  a.toNat < UTOP
  := by
  have hutop : UTOP = 0xEEC00000 := by decide
  simp only [InRegion, regionPages] at h
  omega

theorem translate_eq_pteAt (hpg : s.pgdir e = some pg) (va : Word) :
  s.translate pg va = (refOf (s.pteAt e va)).map (fun q => q * PGSIZE + PGOFF va)
  := by
  have hlive : (s.envs e).envStatus ≠ .ENV_FREE := by
    intro hfree
    rw [Kernel.pgdir, if_pos hfree] at hpg
    cases hpg
  have hpg' : (s.envs e).envPgdir = some pg := by
    rw [Kernel.pgdir, if_neg hlive] at hpg
    exact hpg
  cases hq : refOf (s.pteAt e va) with
  | some q =>
      rw [translate_of_refOf hlive hpg' hq]
      rfl
  | none =>
      rw [Kernel.translate]
      cases hent : s.entries pg va with
      | none => rfl
      | some w =>
          obtain ⟨hpte, hne⟩ := pteAt_of_entries hpg hent
          rw [hpte] at hq
          exact (hne hq).elim

/-- Below `UTOP` access is the same where the page table entry is. -/
theorem access_congr (hs : Wf avail held s) (hs' : Wf avail held s') (hpg : s.pgdir e = some pg)
    (hpg' : s'.pgdir e = some pg) {va : Word} (hva : va.toNat < UTOP)
    (hpte : s'.pteAt e va = s.pteAt e va) :
  s'.translate pg va = s.translate pg va ∧ s'.userReadable pg va = s.userReadable pg va
    ∧ s'.userWritable pg va = s.userWritable pg va
  := by
  have hallows : ∀ perm, (PTE_W ||| PTE_U) &&& perm = perm →
      s'.allows pg perm va = s.allows pg perm va := by
    intro perm hperm
    apply Bool.eq_iff_iff.mpr
    rw [allows_iff_pteAt hs hpg hva hperm, allows_iff_pteAt hs' hpg' hva hperm, hpte]
  constructor
  · rw [translate_eq_pteAt hpg, translate_eq_pteAt hpg', hpte]
  · exact ⟨hallows PTE_U (by decide), hallows (PTE_U ||| PTE_W) (by decide)⟩

/-- The entries made for a range let environments read and write. -/
theorem regionPte_flags (p : Nat) :
  regionPte p &&& (PTE_U ||| PTE_W) = PTE_U ||| PTE_W
  := by
  have hperm : regionPerm &&& (PTE_U ||| PTE_W) = PTE_U ||| PTE_W := by decide
  rw [regionPte]
  apply BitVec.eq_of_getLsbD_eq
  intro i _
  have hbit := congrArg (fun w => w.getLsbD i) hperm
  simp only [BitVec.getLsbD_and] at hbit
  simp only [BitVec.getLsbD_and, BitVec.getLsbD_or]
  cases hi : (PTE_U ||| PTE_W).getLsbD i with
  | false =>
      rw [BitVec.getLsbD_or] at hi
      rw [hi, Bool.and_false]
  | true =>
      rw [hi, Bool.and_true] at hbit
      rw [BitVec.getLsbD_or] at hi
      rw [hbit, hi]
      simp

/-- A page that has one reference is referred to by one slot. -/
theorem Wf.sole_of_ppRef (hs : Wf avail ∅ s) (hfits : Fits avail s) {p : Nat} {x y : Slot}
    (hp : (s.pages p).ppRef = 1) (hx : s.slotRef x = some p) (hy : s.slotRef y = some p) :
  y = x
  := by
  obtain ⟨l, hl⟩ := hs.mem
  have havail := Kernel.mem_avail hl hx
  have hone : s.refs p = 1 := by
    have href := hl.ppRef_eq havail
    have hlt : s.refs p + 0 ≤ 65535 := hfits p havail
    omega
  obtain ⟨z, hz⟩ := Finset.card_eq_one.mp hone
  have hmem : ∀ w, s.slotRef w = some p → w = z := by
    intro w hw
    have hin : w ∈ slots.filter (fun w => s.slotRef w = some p) :=
      Finset.mem_filter.mpr ⟨mem_slots w, hw⟩
    rw [hz] at hin
    exact Finset.mem_singleton.mp hin
  rw [hmem x hx, hmem y hy]

/-- A page that is referred to by one slot has one reference. -/
theorem Wf.ppRef_of_sole (hs : Wf avail ∅ s) {p : Nat} {x : Slot} (hx : s.slotRef x = some p)
    (hall : ∀ y, s.slotRef y = some p → y = x) :
  (s.pages p).ppRef = 1
  := by
  obtain ⟨l, hl⟩ := hs.mem
  rw [hl.ppRef_eq (Kernel.mem_avail hl hx), Kernel.refs,
    refCount.eq_one (mem_slots x) hx (fun y _ => hall y)]

/-- What an address is mapped to is what its slot refers to. -/
theorem MapsTo.slotRef {a : Word} {p : Nat} (h : MapsTo s pg a p) (hpg : s.pgdir e = some pg)
    (ha : a.toNat < UTOP) :
  s.slotRef (pageSlot (pteAddr e a ha)) = some p
  := by
  have htr := h.1
  rw [translate_eq_pteAt hpg] at htr
  obtain ⟨q, hq, heq⟩ := Option.map_eq_some_iff.mp htr
  have hpos : 0 < PGSIZE := by decide
  obtain rfl : q = p := Nat.eq_of_mul_eq_mul_right hpos (Nat.add_right_cancel heq)
  rw [slotRef_pageSlot, ptes_pteAddr]
  exact hq

section Exact

variable {va len : Word} (hs : Wf avail ∅ s) (hpg : s.pgdir e = some pg)
  (htop : va.toNat + len.toNat ≤ UTOP)
include hs hpg htop

/-- A range made anew is mapped as it should be. -/
theorem Remade.exact (h : Remade e (va.toNat / 4096) (regionPages va len) s s')
    (hs' : Wf avail ∅ s') :
  RegionExact e pg va len s s'
  := by
  have hpg' : s'.pgdir e = some pg := by rw [h.pgdir, hpg]
  constructor
  case mapped =>
    constructor
    case page =>
      intro a ha
      have hlt := ha.lt_UTOP htop
      have hin : pageSlot (pteAddr e a hlt) ∈ pageSlots e (va.toNat / 4096) (regionPages va len) :=
        (mem_pageSlots_va hlt).mpr ⟨rfl, ha⟩
      obtain ⟨p, hp, hpte⟩ := h.made _ hin
      obtain ⟨q, hq, hall⟩ := h.sole _ (Finset.mem_union_left _ hin)
      have href : s'.slotRef (pageSlot (pteAddr e a hlt)) = some p := by
        rw [slotRef_pageSlot, hpte, refOf_regionPte hp]
      rw [href] at hq
      obtain rfl := Option.some.inj hq
      rw [ptes_pteAddr] at hpte
      refine ⟨p, ⟨?_, ?_⟩, hs'.ppRef_of_sole href hall⟩
      · rw [translate_eq_pteAt hpg', hpte, refOf_regionPte hp]
        rfl
      · apply (allows_iff_pteAt hs' hpg' hlt (by decide)).mpr
        rw [hpte, refOf_regionPte hp]
        exact ⟨by simp, regionPte_flags p⟩
    case distinct =>
      intro a a' p ha ha' hmaps hmaps'
      have hlt := ha.lt_UTOP htop
      have hlt' := ha'.lt_UTOP htop
      obtain ⟨q, hq, hall⟩ := h.sole _ (Finset.mem_union_left _
        ((mem_pageSlots_va hlt).mpr ⟨rfl, ha⟩))
      rw [hmaps.slotRef hpg' hlt] at hq
      obtain rfl := Option.some.inj hq
      have heq := hall _ (hmaps'.slotRef hpg' hlt')
      exact ((pteAddr_eq_iff hlt' hlt).mp (pageSlot_inj heq)).symm
  case others =>
    intro e' pg' he'
    have hpg'' : s'.pgdir e' = some pg' := by rw [h.pgdir, he']
    use hpg''
    intro a ha hout
    apply access_congr hs hs' he' hpg'' ha
    rw [← ptes_pteAddr s' e' ha, ← ptes_pteAddr s e' ha]
    apply h.ptes
    rw [mem_pageSlots_va ha]
    rintro ⟨he, hin⟩
    exact hout.elim (fun hne => hne he) (fun hne => hne hin)
  case count =>
    intro n n' hn hn'
    have hcard : (pageSlots e (va.toNat / 4096) (regionPages va len)).card = regionPages va len := by
      apply card_pageSlots
      have hutop : UTOP = 0xEEC00000 := by decide
      simp only [regionPages, NUPDE]
      omega
    have hfree := h.freePages hs hs' hn hn'
    rw [hcard] at hfree
    exact hfree

/-- A range that is mapped already has slots of its own. -/
theorem RegionMapped.ownSlots (hfits : Fits avail s) (h : RegionMapped pg va len s) :
  OwnSlots e (va.toNat / 4096) (regionPages va len) s s
  := by
  have hutop : UTOP = 0xEEC00000 := by decide
  -- the page number `n` of the range, as a slot
  have hpage : ∀ n, va.toNat / 4096 ≤ n → n < va.toNat / 4096 + regionPages va len →
      ∃ (a : Word) (ha : a.toNat < UTOP), InRegion va len a ∧ a.toNat / 4096 = n
        ∧ ∃ p, s.slotRef (pageSlot (pteAddr e a ha)) = some p ∧ (s.pages p).ppRef = 1 := by
    intro n hlo hhi
    have hn : n < UTOP / 4096 := by
      rw [regionPages] at hhi
      omega
    have ha : (BitVec.ofNat 32 (n * 4096)).toNat = n * 4096 := by
      rw [BitVec.toNat_ofNat]
      omega
    have hin : InRegion va len (BitVec.ofNat 32 (n * 4096)) := by
      rw [InRegion, ha]
      omega
    obtain ⟨p, hmaps, hp⟩ := h.page _ hin
    have hlt := hin.lt_UTOP htop
    refine ⟨_, hlt, hin, by omega, p, ?_, hp⟩
    exact hmaps.slotRef hpg hlt
  constructor
  case others => exact fun _ _ => rfl
  case sole =>
    intro x hx
    obtain hx | hx := Finset.mem_union.mp hx
    · obtain ⟨-, d, t, rfl, hlo, hhi⟩ := Finset.mem_filter.mp hx
      obtain ⟨a, ha, -, hn, p, hp, href⟩ := hpage _ hlo hhi
      have ht : t.val < 1024 := t.isLt
      have heq : pageSlot (pteAddr e a ha) = .page e d t := by
        rw [pageSlot, pteAddr]
        simp only [Slot.page.injEq, true_and]
        exact ⟨Fin.ext (by simp only [PDX_eq]; omega), Fin.ext (by simp only [PTX_eq]; omega)⟩
      rw [heq] at hp
      exact ⟨p, hp, fun y hy => hs.sole_of_ppRef hfits href hp hy⟩
    · -- no page table is missing
      obtain ⟨-, d, rfl, hnone, n, hin, hd⟩ := Finset.mem_filter.mp hx
      rw [Finset.mem_Ico] at hin
      obtain ⟨a, ha, -, hn, p, hp, -⟩ := hpage n hin.1 hin.2
      have hdx : PDX a = d.val := by
        rw [PDX_eq]
        omega
      have hnone' : refOf (s.pde e (PDX a)) = none := by
        rw [hdx]
        exact hnone
      rw [slotRef_pageSlot, ptes_pteAddr, Kernel.pteAt, Kernel.pte, hnone', refOf_zero] at hp
      cases hp

end Exact

theorem FreePages.unique {n n' : Nat} (h : FreePages s n) (h' : FreePages s n') :
  n = n'
  := by
  obtain ⟨l, hl, rfl⟩ := h
  obtain ⟨l', hl', rfl⟩ := h'
  rw [hl.unique hl']

/-- `region_alloc` maps a range below `UTOP` as it should, or panics for want of pages, if and only
if there are not just as many free pages as the range takes. But for a range that crosses to the
negative addresses it does nothing, so that the range must be mapped already. -/
theorem regionAlloc_exact_iff (hs : Wf avail ∅ s) (hfits : Fits avail s)
    (hpg : s.pgdir e = some pg) {va len : Word} (hlen : 0 < len.toNat)
    (htop : va.toNat + len.toNat ≤ UTOP) :
  RegionMeets e pg va len s (regionAlloc pg va len s)
    ↔ (Crosses va len → RegionMapped pg va len s)
      ∧ (¬ Crosses va len → ∀ n, FreePages s n →
        n + (releasedPages s e (va.toNat / 4096) (regionPages va len)).card
          ≠ regionPages va len + (missingTables s e (va.toNat / 4096) (regionPages va len)).card)
  := by
  have hutop : UTOP = 0xEEC00000 := by decide
  have hcard : (pageSlots e (va.toNat / 4096) (regionPages va len)).card = regionPages va len := by
    apply card_pageSlots
    simp only [regionPages, NUPDE]
    omega
  rw [regionAlloc_loop htop]
  by_cases hc : Crosses va len
  · -- the loop does nothing
    rw [if_pos hc]
    constructor
    · intro h
      exact ⟨fun _ => RegionExact.mapped h, fun hn => (hn hc).elim⟩
    · rintro ⟨h, -⟩
      constructor
      case mapped => exact h hc
      case others => exact fun _ _ he => ⟨he, fun _ _ _ => ⟨rfl, rfl, rfl⟩⟩
      case count =>
        intro n n' hn hn'
        have hfree := ((h hc).ownSlots hs hpg htop hfits).freePages hs hs hn hn'
        rw [hcard] at hfree
        exact hfree
  · rw [if_neg hc]
    have hregion : 4096 * (va.toNat / 4096 + regionPages va len) ≤ UTOP := by
      rw [regionPages]
      omega
    have hP : 0 < regionPages va len := by
      rw [regionPages]
      omega
    obtain ⟨_, s', heq, hs', hmade, hroom⟩ | ⟨heq, n0, hn0, hshort⟩ :=
      regionLoop_exact hregion hs hfits hpg hP
    · -- it returns, and a page is left
      rw [heq]
      have hexact := hmade.exact hs hpg htop hs'
      constructor
      · rintro -
        refine ⟨fun h => (hc h).elim, ?_⟩
        intro _ n hn hn'
        obtain ⟨m, hm⟩ := hs'.exists_freePages
        have hcount := hexact.count n m hn hm
        obtain ⟨l, hl, rfl⟩ := hm
        cases l with
        | nil => exact hroom hl
        | cons p l =>
            rw [List.length_cons] at hcount
            omega
      · exact fun _ => hexact
    · -- it panics
      rw [heq]
      rw [hcard] at hshort
      constructor
      · intro h
        refine ⟨fun h => (hc h).elim, ?_⟩
        intro _ n hn
        exact Nat.ne_of_lt (h n hn)
      · rintro ⟨-, h⟩ n hn
        have hne := h hc n hn
        rw [hn0.unique hn] at hshort
        omega

/-- It is so for a byte at the first page of an environment that has just been made. -/
theorem regionAlloc_exact_child :
  ∃ s, ∃ e : Fin NENV, ∃ pg, s.pgdir e = some pg
    ∧ (RegionMeets e pg 0x1000 1 s (regionAlloc pg 0x1000 1 s)
      ↔ (Crosses 0x1000 1 → RegionMapped pg 0x1000 1 s)
        ∧ (¬ Crosses 0x1000 1 → ∀ n, FreePages s n →
          n + (releasedPages s e 1 1).card ≠ 1 + (missingTables s e 1 1).card))
  := by
  obtain ⟨m, a, c, hm, hf, -⟩ := exists_at_runnable
  obtain ⟨fl, hfl⟩ := hm.wf.env
  obtain ⟨pg, -, hpg⟩ := hfl.live_pgdir hf.child
  exact ⟨_, c, pg, hpg, regionAlloc_exact_iff hm.wf hm.fits hpg (by decide) (by decide)⟩

/-- A range in the middle of the addresses is not mapped for an environment that has just been
made. -/
theorem regionAlloc_crosses :
  ∃ s, ∃ e : Fin NENV, ∃ pg, ∃ avail, Wf avail ∅ s ∧ Fits avail s ∧ s.pgdir e = some pg
    ∧ ¬ RegionMeets e pg 0x7FFFE000 0x3000 s (regionAlloc pg 0x7FFFE000 0x3000 s)
  := by
  obtain ⟨m, a, c, hm, hf, -⟩ := exists_at_runnable
  obtain ⟨fl, hfl⟩ := hm.wf.env
  obtain ⟨pg, -, hpg⟩ := hfl.live_pgdir hf.child
  refine ⟨_, c, pg, _, hm.wf, hm.fits, hpg, ?_⟩
  rw [regionAlloc_loop (by decide), if_pos (by decide)]
  intro h
  obtain ⟨p, hmaps, -⟩ := (RegionExact.mapped h).page 0x7FFFE000 (by
    rw [InRegion]
    decide)
  have hfresh : m.kernel.pteAt c 0x7FFFE000 = 0 := by
    rw [Kernel.pteAt, Kernel.pte, hf.fresh _ (by decide), refOf_zero]
  have htr := hmaps.1
  rw [translate_eq_pteAt hpg, hfresh, refOf_zero] at htr
  cases htr

end Root

end Jos
