import Jos.Root.Intact

/-!
# Allocating a region page by page

What `region_alloc` of `kern/env.c` does to a well-formed kernel.  It goes through its range byte by
byte, and maps a fresh page for each, in the place of the one before.  When it cannot map a page, it
has taken the last one that was free, and panics at the next byte, which is in the same page.

A page that was mapped in the range, and nowhere else, is free after the first byte, so that it is
what is mapped for the second one.  From then on two pages take turns, and since a page has an even
number of bytes the old page is the one that stays.

`E` is what may be wrong when something panics or faults: with `True` for it the lemmas say what
holds when the loader returns, with `False` that it does return.
-/

namespace Jos

namespace Root

open Bytes Prog

variable {E : Prop} {avail : Finset Nat} {e : Fin NENV} {pg : Nat} {s s0 s1 s' : Kernel}

/-- In the middle of loading into the environment `e` what was the kernel `s0`, with at least `n`
pages still free. -/
structure Midway (E : Prop) (avail : Finset Nat) (e : Fin NENV) (pg : Nat) (s0 : Kernel) (n : Nat)
    (s : Kernel) : Prop where
  wf : Wf avail ∅ s
  fits : Fits avail s
  loaded : Loaded avail e s0 s
  dir : s.pgdir e = some pg
  free : E ∨ HasFree n s
  esp : (s.envs e).envTf.tfEsp = (s0.envs e).envTf.tfEsp

namespace Midway

variable {n n' : Nat} (h : Midway E avail e pg s0 n s)
include h

theorem mono (hn : n' ≤ n) :
  Midway E avail e pg s0 n' s
  := by
  refine ⟨h.wf, h.fits, h.loaded, h.dir, h.free.imp_right ?_, h.esp⟩
  rintro ⟨l, hl, hle⟩
  exact ⟨l, hl, Nat.le_trans hn hle⟩

theorem stored (hst : UserStored e s s') :
  Midway E avail e pg s0 n s'
  := by
  obtain ⟨l, hl⟩ := h.wf.mem
  constructor
  case wf => exact hst.wf h.wf
  case fits => exact hst.fits hl h.fits
  case loaded => exact hst.loaded h.wf h.loaded
  case dir => rw [(hst.sameTables hl).pgdir, h.dir]
  case free => exact h.free.imp_right hst.hasFree.mpr
  case esp => rw [hst.quiet, ← h.esp]

/-- Setting registers or the type of the environment is part of loading. -/
theorem reload (eip esp : Word) (type : EnvType) :
  Wf avail ∅ (s.setEnv e (reloaded (s.envs e) eip esp type))
    ∧ Fits avail (s.setEnv e (reloaded (s.envs e) eip esp type))
    ∧ Loaded avail e s0 (s.setEnv e (reloaded (s.envs e) eip esp type))
    ∧ (s.setEnv e (reloaded (s.envs e) eip esp type)).ptes = s.ptes
    ∧ (s.setEnv e (reloaded (s.envs e) eip esp type)).pgdir e = some pg
  := by
  have hlive : (s.envs e).envStatus ≠ .ENV_FREE := by
    intro hfree
    have hdir := h.dir
    rw [Kernel.pgdir, if_pos hfree] at hdir
    cases hdir
  have hpg : (s.setEnv e (reloaded (s.envs e) eip esp type)).pgdir e = s.pgdir e := by
    rw [Kernel.setEnv_pgdir, Kernel.pgdir]
    rfl
  obtain ⟨hpgdir, hpde, hpte, hslot⟩ := Kernel.setEnv_views hpg
  have hptes : (s.setEnv e (reloaded (s.envs e) eip esp type)).ptes = s.ptes :=
    funext (fun a => hpte a.1 a.2.1 a.2.2)
  refine ⟨h.wf.setEnv hlive hlive rfl, ?_, ?_, hptes, hpg.trans h.dir⟩
  · intro q hq
    rw [Kernel.refs, hslot]
    exact h.fits q hq
  · constructor
    case quiet =>
      obtain ⟨eip', esp', type', hq⟩ := h.loaded.quiet
      use eip, esp, type
      rw [hq]
      simp only [Kernel.setEnv, Function.update_self, Function.update_idem]
      rfl
    case upper => exact fun e' d hd hd' => (hpde e' d).trans (h.loaded.upper e' d hd hd')
    case kern => exact h.loaded.kern
    case pde => exact fun e' he d hd => (hpde e' d).trans (h.loaded.pde e' he d hd)
    case pte => exact fun a ha => (congrFun hptes a).trans (h.loaded.pte a ha)
    case fresh =>
      intro a
      rw [hptes]
      obtain heq | ⟨q, hq, hw, hg⟩ := h.loaded.fresh a
      · exact Or.inl heq
      · exact Or.inr ⟨q, hq, hw, hg.avail, hg.alone, hptes ▸ hg.gone⟩
    case writable =>
      rw [hptes]
      exact h.loaded.writable
    case tables =>
      intro d q hq
      rw [hslot] at hq
      have hg := h.loaded.tables d q hq
      exact ⟨hg.avail, hg.alone, hptes ▸ hg.gone⟩
    case changed =>
      intro q i hi hne
      obtain hw | hg := h.loaded.changed q i hi hne
      · exact Or.inl hw
      · exact Or.inr ⟨hg.avail, hg.alone, hptes ▸ hg.gone⟩

end Midway

/-! ### Allocating a region -/

theorem pageFreeList_of_hasFree {n : Nat} (h : HasFree (n + 1) s) :
  s.pageFreeList ≠ none
  := by
  obtain ⟨l, hl, hn⟩ := h
  cases l with
  | nil => simp at hn
  | cons p l =>
      rw [hl.1]
      simp

section Region

variable {B P : Nat} (hregion : 4096 * (B + P) ≤ UTOP)
include hregion

/-- The addresses of a region do not wrap around. -/
theorem regionVa_toNat {k : Nat} (hk : k < 4096 * P) :
  (BitVec.ofNat 32 (4096 * B) + BitVec.ofNat 32 k).toNat = 4096 * B + k
  := by
  have hutop : UTOP < 2 ^ 32 := by decide
  rw [BitVec.toNat_add, BitVec.toNat_ofNat, BitVec.toNat_ofNat]
  omega

theorem regionVa_lt {k : Nat} (hk : k < 4096 * P) :
  (BitVec.ofNat 32 (4096 * B) + BitVec.ofNat 32 k).toNat < UTOP
  := by
  rw [regionVa_toNat hregion hk]
  omega

/-- Addresses of the same page have the same page table entry. -/
theorem regionVa_page {k : Nat} (hk : k + 1 < 4096 * P) (hmid : (k + 1) % 4096 ≠ 0) :
  pteAddr e (BitVec.ofNat 32 (4096 * B) + BitVec.ofNat 32 (k + 1)) (regionVa_lt hregion hk)
    = pteAddr e (BitVec.ofNat 32 (4096 * B) + BitVec.ofNat 32 k)
      (regionVa_lt hregion (Nat.lt_of_succ_lt hk))
  := by
  have h1 := regionVa_toNat hregion hk
  have h0 := regionVa_toNat hregion (Nat.lt_of_succ_lt hk)
  simp only [pteAddr, PDX_eq, PTX_eq, h1, h0, Prod.mk.injEq, Fin.mk.injEq, true_and]
  omega

/-- After `k` bytes of a region: its pages so far are mapped, the last one only there. Or no page
is free, in the middle of a page. -/
def RegionAt (E : Prop) (avail : Finset Nat) (e : Fin NENV) (pg : Nat) (s0 : Kernel) (B P m k : Nat)
    (s : Kernel) : Prop :=
  (Midway E avail e pg s0 (2 * (P - (k + 4095) / 4096) + m + 1) s
    ∧ (∀ (hva : (BitVec.ofNat 32 (4096 * B) + BitVec.ofNat 32 k).toNat < UTOP), k % 4096 ≠ 0 →
        ∃ p, s.slotRef (pageSlot (pteAddr e _ hva)) = some p
          ∧ ∀ x, s.slotRef x = some p → x = pageSlot (pteAddr e _ hva))
    ∧ ∀ j < k, Writable (s.pteAt e (BitVec.ofNat 32 (4096 * B) + BitVec.ofNat 32 j)))
  ∨ (E ∧ s.pageFreeList = none ∧ k % 4096 ≠ 0)

omit hregion in
/-- In the middle of a page there is a page table. -/
theorem regionStart {k : Nat} {va : Word} (hva : va.toNat < UTOP)
    (hlast : k % 4096 ≠ 0 → ∃ p, s.slotRef (pageSlot (pteAddr e va hva)) = some p)
    (htable : s.slotRef (.table e ⟨PDX va, PDX_lt_of_lt_UTOP hva⟩) = none) :
  k % 4096 = 0
  := by
  by_contra hne
  obtain ⟨p, hp⟩ := hlast hne
  have hnone : refOf (s.pde e (PDX va)) = none := htable
  rw [slotRef_pageSlot, ptes_pteAddr, Kernel.pteAt, Kernel.pte, hnone, refOf_zero] at hp
  cases hp

omit hregion in
/-- Without a free page nothing can be mapped. -/
theorem regionAllocAt_none {va : Word} (hnone : s.pageFreeList = none) :
  regionAllocAt pg va s = .error (.panic "Error happened in region alloc")
  := by
  rw [regionAllocAt, bind_of_eq (pageAlloc_zero_none hnone)]
  rfl

theorem regionAllocAt_step (hs0 : Wf avail ∅ s0) {m k : Nat} (hk : k < 4096 * P)
    (h : RegionAt E avail e pg s0 B P m k s) :
  (regionAllocAt pg (BitVec.ofNat 32 (4096 * B) + BitVec.ofNat 32 k)).EndsUnless E s
    (fun _ s' => RegionAt E avail e pg s0 B P m (k + 1) s')
  := by
  obtain ⟨hmid, hlast, hdone⟩ | ⟨hE, hnone, -⟩ := h
  · have hva := regionVa_lt hregion hk
    obtain ⟨hnone, heq⟩ | ⟨s', heq, hnone, hfew, htable⟩ | ⟨p, s', heq, hins⟩ :=
      regionAllocAt_cases hmid.wf hmid.fits hmid.dir hva
    · -- no page was free
      apply endsUnless_of_error heq
      obtain hE | hfree := hmid.free
      · exact hE
      · exact (pageFreeList_of_hasFree hfree hnone).elim
    · -- the last free page was taken, and there was none for the page table
      rw [endsUnless_of_eq heq]
      right
      have hstart : k % 4096 = 0 :=
        regionStart hva (fun hne => (hlast hva hne).imp fun _ hp => hp.1) htable
      refine ⟨?_, hnone, by omega⟩
      obtain hE | ⟨l, hl, hn⟩ := hmid.free
      · exact hE
      · exact (hfew ⟨l, hl, by omega⟩).elim
    · -- a page was mapped
      rw [endsUnless_of_eq heq]
      left
      refine ⟨⟨hins.wf, hins.fits hmid.wf hmid.fits, hmid.loaded.insert hs0 hmid.wf hins, ?_, ?_,
        ?_⟩, ?_, ?_⟩
      · rw [hins.edit.quiet.pgdir, hmid.dir]
      · refine hmid.free.imp_right ?_
        intro hfree
        by_cases hstart : k % 4096 = 0
        · apply hins.hasFree hmid.wf
          have hn : 2 * (P - (k + 4095) / 4096) + m + 1
              = 2 * (P - (k + 1 + 4095) / 4096) + m + 1 + 2 := by omega
          rw [← hn]
          exact hfree
        · obtain ⟨p1, hp1, hsole⟩ := hlast hva hstart
          have hn : (k + 1 + 4095) / 4096 = (k + 4095) / 4096 := by omega
          rw [hn]
          exact hins.hasFree_again hmid.wf hp1 hsole hfree
      · rw [hins.edit.quiet, ← hmid.esp]
      · intro hva' hne
        by_cases hk' : k + 1 < 4096 * P
        · use p
          rw [regionVa_page hregion hk' hne]
          exact ⟨hins.slot_self, hins.sole hmid.wf⟩
        · omega
      · intro j hj
        have hvaj := regionVa_lt hregion (k := j) (by omega)
        rw [← ptes_pteAddr s' e hvaj]
        by_cases hjk : j = k
        · subst hjk
          rw [hins.edit.ptes, Function.update_self]
          exact writable_regionPte hins.lt
        · apply hins.writable
          rw [ptes_pteAddr]
          exact hdone j (by omega)
  · -- the loop got here with no page free
    exact endsUnless_of_error (regionAllocAt_none hnone) hE

/-- The pages outside of the region are left intact. -/
theorem regionAllocAt_spares {m k : Nat} (hk : k < 4096 * P)
    (h : RegionAt E avail e pg s0 B P m k s) :
  (regionAllocAt pg (BitVec.ofNat 32 (4096 * B) + BitVec.ofNat 32 k)).EndsUnless E s
    (fun _ s' => E ∨ Spares e (fun n => B ≤ n ∧ n < B + P) s s')
  := by
  obtain ⟨hmid, hlast, -⟩ | ⟨hE, hnone, -⟩ := h
  · have hva := regionVa_lt hregion hk
    obtain ⟨hnone, heq⟩ | ⟨s', heq, -, hfew, htable⟩ | ⟨p, s', heq, hins⟩ :=
      regionAllocAt_cases hmid.wf hmid.fits hmid.dir hva
    · apply endsUnless_of_error heq
      obtain hE | hfree := hmid.free
      · exact hE
      · exact (pageFreeList_of_hasFree hfree hnone).elim
    · rw [endsUnless_of_eq heq]
      left
      obtain hE | ⟨l, hl, hn⟩ := hmid.free
      · exact hE
      · have hstart : k % 4096 = 0 :=
          regionStart hva (fun hne => (hlast hva hne).imp fun _ hp => hp.1) htable
        exact (hfew ⟨l, hl, by omega⟩).elim
    · rw [endsUnless_of_eq heq]
      right
      apply (hins.spares hmid.wf).mono
      rintro n rfl
      rw [regionVa_toNat hregion hk, PGSIZE]
      omega
  · exact endsUnless_of_error (regionAllocAt_none hnone) hE

/-- A region is allocated. -/
theorem regionLoop_ok (hs0 : Wf avail ∅ s0) {m : Nat}
    (h : Midway E avail e pg s0 (2 * P + m + 1) s) :
  (forUp 0 (4096 * P) (fun k =>
    regionAllocAt pg (BitVec.ofNat 32 (4096 * B) + BitVec.ofNat 32 k))).EndsUnless E s
    (fun _ s' => Midway E avail e pg s0 (m + 1) s'
      ∧ (E ∨ Spares e (fun n => B ≤ n ∧ n < B + P) s s')
      ∧ ∀ j < 4096 * P, Writable (s'.pteAt e (BitVec.ofNat 32 (4096 * B) + BitVec.ofNat 32 j)))
  := by
  have hloop : (forUp 0 (4096 * P) (fun k =>
      regionAllocAt pg (BitVec.ofNat 32 (4096 * B) + BitVec.ofNat 32 k))).EndsUnless E s
      (fun _ s' => RegionAt E avail e pg s0 B P m (0 + 4096 * P) s'
        ∧ (E ∨ Spares e (fun n => B ≤ n ∧ n < B + P) s s')) := by
    apply EndsUnless.forUp (fun k s' => RegionAt E avail e pg s0 B P m k s'
      ∧ (E ∨ Spares e (fun n => B ≤ n ∧ n < B + P) s s'))
    · rintro k t _ hk ⟨hat, hspares⟩
      apply ((regionAllocAt_step hregion hs0 (by omega) hat).and
        (regionAllocAt_spares hregion (by omega) hat)).mono
      rintro _ t' ⟨hat', hspares'⟩
      use hat'
      obtain hE | hspares := hspares
      · exact Or.inl hE
      · exact hspares'.imp_right hspares.trans
    · use Or.inl ⟨h, fun _ hne => (hne rfl).elim, fun j hj => by omega⟩
      exact Or.inr (.refl e _ s)
  apply hloop.mono
  rintro _ s' ⟨⟨hmid, -, hdone⟩ | ⟨-, -, hne⟩, hspares⟩
  · refine ⟨?_, hspares, ?_⟩
    · apply hmid.mono
      omega
    · intro j hj
      exact hdone j (by omega)
  · omega

end Region

/-! ### Allocating a page that is mapped already -/

/-- Of two pages that take turns, the one whose turn it is. -/
def turn (k p q : Nat) : Nat :=
  if k % 2 = 0 then p else q

theorem turn_succ (k p q : Nat) :
  turn (k + 1) p q = turn k q p
  := by
  rw [turn, turn]
  split
  · rw [if_neg (by omega)]
  · rw [if_pos (by omega)]

/-- From `s` to `t` the page `q`, which was mapped at `a` only, and the first free page `p` have
been mapped there in turn, `k` times. -/
structure TookTurns (a : PteAddr) (q p : Nat) (s : Kernel) (k : Nat) (t : Kernel) : Prop where
  sole : Sole t a (turn k q p)
  head : t.pageFreeList = some (turn k p q)
  bytes : ∀ o < PGSIZE, t.mem (q * PGSIZE + o) = s.mem (q * PGSIZE + o)
  pte : 0 < k → t.ptes a = regionPte (turn k q p)

/-- The next turn. -/
theorem TookTurns.step {q p k : Nat} {va : Word} (hva : va.toNat < UTOP)
    (h : TookTurns (pteAddr e va hva) q p s k s1) (hwf : Wf avail ∅ s1) (hfits : Fits avail s1)
    (hpg : s1.pgdir e = some pg) :
  ∃ s', regionAllocAt pg va s1 = .ok ((), s') ∧ TookTurns (pteAddr e va hva) q p s (k + 1) s'
  := by
  obtain ⟨s', heq, hsole, hpte, hhead, hbytes⟩ :=
    regionAllocAt_swaps hwf hfits hpg hva h.head h.sole
  use s', heq
  constructor
  case sole =>
    rw [turn_succ]
    exact hsole
  case head =>
    rw [turn_succ]
    exact hhead
  case bytes =>
    intro o ho
    rw [← h.bytes o ho]
    apply hbytes q _ o ho
    rw [turn, turn]
    split
    · exact Or.inr rfl
    · exact Or.inl rfl
  case pte =>
    intro _
    rw [turn_succ]
    exact hpte

/-- From `s` to `s'` the page `q` was mapped again where it was mapped before, and only there. -/
structure Remapped (a : PteAddr) (q : Nat) (s s' : Kernel) : Prop where
  pte : s'.ptes a = regionPte q
  sole : Sole s' a q
  bytes : ∀ o < PGSIZE, s'.mem (q * PGSIZE + o) = s.mem (q * PGSIZE + o)

/-- A page that is mapped where a page is allocated, and only there, is mapped there again after
the bytes of the page, which are an even number. -/
theorem regionPage_remaps (hs0 : Wf avail ∅ s0) {B m q : Nat} (hregion : 4096 * (B + 1) ≤ UTOP)
    (h : Midway E avail e pg s0 (2 * 1 + m + 1) s) {b : Word} (hb : b.toNat < UTOP)
    (hpage : b.toNat / PGSIZE = B) (hq : Sole s (pteAddr e b hb) q) :
  (forUp 0 (4096 * 1) (fun k =>
    regionAllocAt pg (BitVec.ofNat 32 (4096 * B) + BitVec.ofNat 32 k))).EndsUnless E s
    (fun _ s' => E ∨ Remapped (pteAddr e b hb) q s s')
  := by
  obtain hE | hfree := h.free
  · exact (regionLoop_ok hregion hs0 h).mono (fun _ _ _ => Or.inl hE)
  · obtain ⟨p, hp⟩ := Option.ne_none_iff_exists'.mp (pageFreeList_of_hasFree hfree)
    have hloop : (forUp 0 (4096 * 1) (fun k =>
        regionAllocAt pg (BitVec.ofNat 32 (4096 * B) + BitVec.ofNat 32 k))).EndsUnless E s
        (fun _ s' => RegionAt E avail e pg s0 B 1 m (0 + 4096 * 1) s'
          ∧ (E ∨ TookTurns (pteAddr e b hb) q p s (0 + 4096 * 1) s')) := by
      apply EndsUnless.forUp (fun k s' => RegionAt E avail e pg s0 B 1 m k s'
        ∧ (E ∨ TookTurns (pteAddr e b hb) q p s k s'))
      · rintro k t _ hk ⟨hat, hturns⟩
        have hstep := regionAllocAt_step hregion hs0 (by omega) hat
        obtain hE | hturns := hturns
        · exact hstep.mono (fun _ _ hat' => ⟨hat', Or.inl hE⟩)
        · obtain ⟨hmid, -, -⟩ | ⟨hE, -, -⟩ := hat
          · have hva := regionVa_lt hregion (k := k) (by omega)
            have ha : pteAddr e b hb = pteAddr e _ hva := by
              apply (pteAddr_eq_iff hb hva).mpr
              rw [regionVa_toNat hregion (by omega), hpage, PGSIZE]
              omega
            rw [ha] at hturns ⊢
            obtain ⟨t', heq, hturns'⟩ := hturns.step hva hmid.wf hmid.fits hmid.dir
            rw [endsUnless_of_eq heq] at hstep ⊢
            exact ⟨hstep, Or.inr hturns'⟩
          · exact hstep.mono (fun _ _ hat' => ⟨hat', Or.inl hE⟩)
      · use Or.inl ⟨h, fun _ hne => (hne rfl).elim, fun j hj => by omega⟩
        exact Or.inr ⟨hq, hp, fun _ _ => rfl, fun hpos => (Nat.lt_irrefl 0 hpos).elim⟩
    apply hloop.mono
    rintro _ s' ⟨-, hturns⟩
    refine hturns.imp_right ?_
    intro hturns
    exact ⟨hturns.pte (by decide), hturns.sole, hturns.bytes⟩

/-- So whatever page was mapped there only is mapped there again. -/
theorem regionPage_remaps_all (hs0 : Wf avail ∅ s0) {B m : Nat} (hregion : 4096 * (B + 1) ≤ UTOP)
    (h : Midway E avail e pg s0 (2 * 1 + m + 1) s) {b : Word} (hb : b.toNat < UTOP)
    (hpage : b.toNat / PGSIZE = B) :
  (forUp 0 (4096 * 1) (fun k =>
    regionAllocAt pg (BitVec.ofNat 32 (4096 * B) + BitVec.ofNat 32 k))).EndsUnless E s
    (fun _ s' => E ∨ ∀ q, Sole s (pteAddr e b hb) q → Remapped (pteAddr e b hb) q s s')
  := by
  by_cases hq : ∃ q, Sole s (pteAddr e b hb) q
  · obtain ⟨q, hq⟩ := hq
    apply (regionPage_remaps hs0 hregion h hb hpage hq).mono
    intro _ s' hremaps
    refine hremaps.imp_right ?_
    intro hremaps q' hq'
    rw [Option.some.inj (hq'.mapped.symm.trans hq.mapped)]
    exact hremaps
  · apply (regionLoop_ok hregion hs0 h).mono
    exact fun _ _ _ => Or.inr (fun q hq' => (hq ⟨q, hq'⟩).elim)

/-- The page table entry of the stack. -/
def stackPte (e : Fin NENV) : PteAddr :=
  pteAddr e (BitVec.ofNat 32 (USTACKTOP - PGSIZE)) (by decide)

/-- From `s` to `s'` the stack of an environment was allocated, though it had one. -/
structure StackRemapped (e : Fin NENV) (s s' : Kernel) : Prop where
  others : Spares e (fun n => n = USTACKTOP / PGSIZE - 1) s s'
  stack : ∀ q, Sole s (stackPte e) q → Remapped (stackPte e) q s s'

/-! ### Regions of pages -/

/-- How many pages a region spans. -/
def regionPages (va len : Word) : Nat :=
  (va.toNat + len.toNat + 4095) / 4096 - va.toNat / 4096

/-- Whether a page number is that of a page of a region. -/
def RegionPage (va len : Word) (n : Nat) : Prop :=
  va.toNat / 4096 ≤ n ∧ n < va.toNat / 4096 + regionPages va len

/-- Whether an address is in a page of a region. -/
def InRegion (va len a : Word) : Prop :=
  va.toNat / 4096 ≤ a.toNat / 4096 ∧ a.toNat / 4096 < va.toNat / 4096 + regionPages va len

/-- Whether a range goes from the addresses that are not negative to those that are. -/
def Crosses (va len : Word) : Prop :=
  va.toNat < 2 ^ 31 ∧ 2 ^ 31 < va.toNat + len.toNat + PGSIZE

instance (va len : Word) : Decidable (Crosses va len) :=
  inferInstanceAs (Decidable (_ ∧ _))

/-- An address as a signed number. -/
theorem toInt_ofNat {n : Nat} (hn : n < 2 ^ 32) :
  (BitVec.ofNat 32 n).toInt = if n < 2 ^ 31 then (n : Int) else (n : Int) - 2 ^ 32
  := by
  rw [BitVec.toInt_eq_toNat_cond, BitVec.toNat_ofNat, Nat.mod_eq_of_lt hn]
  split
  · rw [if_pos (by omega)]
  · rw [if_neg (by omega)]
    rfl

/-- The loop of `region_alloc` goes through whole pages, if its range does not cross from the
addresses that are not negative to those that are. Otherwise it does nothing. -/
theorem regionAlloc_loop {va len : Word} (h : va.toNat + len.toNat ≤ UTOP) :
  regionAlloc pg va len = forUp 0 (if Crosses va len then 0 else 4096 * regionPages va len)
    (fun k => regionAllocAt pg (BitVec.ofNat 32 (4096 * (va.toNat / 4096)) + BitVec.ofNat 32 k))
  := by
  have hutop : UTOP = 0xEEC00000 := by decide
  have hsum : (va + len).toNat = va.toNat + len.toNat := by
    rw [BitVec.toNat_add]
    omega
  have hinit : ROUNDDOWN va.toNat PGSIZE = 4096 * (va.toNat / 4096) := by
    simp only [ROUNDDOWN, PGSIZE]
    omega
  have hfin : ROUNDUP (va + len).toNat PGSIZE = 4096 * ((va.toNat + len.toNat + 4095) / 4096) := by
    simp only [ROUNDUP, ROUNDDOWN, PGSIZE, hsum] at h ⊢
    omega
  have hcount : ((BitVec.ofNat 32 (4096 * ((va.toNat + len.toNat + 4095) / 4096))).toInt
      - (BitVec.ofNat 32 (4096 * (va.toNat / 4096))).toInt).toNat
      = if Crosses va len then 0 else 4096 * regionPages va len := by
    rw [toInt_ofNat (by omega), toInt_ofNat (by omega)]
    by_cases hc : Crosses va len
    · rw [if_pos hc]
      simp only [Crosses, PGSIZE] at hc
      split
      · omega
      · rw [if_pos (by omega)]
        omega
    · rw [if_neg hc]
      simp only [Crosses, PGSIZE] at hc
      rw [regionPages]
      split
      · rw [if_pos (by omega)]
        omega
      · rw [if_neg (by omega)]
        omega
  rw [regionAlloc]
  simp only [hinit, hfin, hcount]

/-- Below the addresses that are negative the loop goes through whole pages. -/
theorem regionAlloc_eq {va len : Word} (h : va.toNat + len.toNat + PGSIZE ≤ 2 ^ 31) :
  regionAlloc pg va len = forUp 0 (4096 * regionPages va len) (fun k =>
    regionAllocAt pg (BitVec.ofNat 32 (4096 * (va.toNat / 4096)) + BitVec.ofNat 32 k))
  := by
  have hutop : 2 ^ 31 ≤ UTOP := by decide
  rw [regionAlloc_loop (by omega), if_neg (fun hc => Nat.not_lt.mpr h hc.2)]

section Regions

variable {m : Nat} (hs0 : Wf avail ∅ s0)
include hs0

/-- Pages are mapped for a whole range, where it may be written to then. -/
theorem regionPages_ok {B P : Nat} (hregion : 4096 * (B + P) ≤ UTOP)
    (h : Midway E avail e pg s0 (2 * P + m + 1) s) :
  (forUp 0 (4096 * P) (fun k =>
    regionAllocAt pg (BitVec.ofNat 32 (4096 * B) + BitVec.ofNat 32 k))).EndsUnless E s
    (fun _ s' => Midway E avail e pg s0 (m + 1) s'
      ∧ (E ∨ Spares e (fun n => B ≤ n ∧ n < B + P) s s')
      ∧ (∀ a, Writable (s.ptes a) → Writable (s'.ptes a))
      ∧ ∀ a : Word, B ≤ a.toNat / 4096 → a.toNat / 4096 < B + P → Writable (s'.pteAt e a))
  := by
  -- also from where the loop starts
  have hself : Midway E avail e pg s (2 * P + m + 1) s :=
    ⟨h.wf, h.fits, Loaded.refl h.wf e, h.dir, h.free, rfl⟩
  apply ((regionLoop_ok hregion hs0 h).and (regionLoop_ok hregion h.wf hself)).mono
  rintro _ s' ⟨⟨hmid, hspares, hdone⟩, hmid', -⟩
  refine ⟨hmid, hspares, hmid'.loaded.writable, ?_⟩
  intro a hlo hhi
  have ha : a = BitVec.ofNat 32 (4096 * B) + BitVec.ofNat 32 (a.toNat - 4096 * B) := by
    apply BitVec.eq_of_toNat_eq
    rw [regionVa_toNat hregion (by omega)]
    omega
  rw [ha]
  apply hdone
  omega

/-- A range in the lower half of the addresses is allocated. -/
theorem regionAlloc_ok {va len : Word} (hva : va.toNat + len.toNat + PGSIZE ≤ 2 ^ 31)
    (h : Midway E avail e pg s0 (2 * regionPages va len + m + 1) s) :
  (regionAlloc pg va len).EndsUnless E s (fun _ s' => Midway E avail e pg s0 (m + 1) s'
    ∧ (E ∨ Spares e (RegionPage va len) s s')
    ∧ (∀ a, Writable (s.ptes a) → Writable (s'.ptes a))
    ∧ ∀ a : Word, InRegion va len a → Writable (s'.pteAt e a))
  := by
  have hregion : 4096 * (va.toNat / 4096 + regionPages va len) ≤ UTOP := by
    have hutop : 2 ^ 31 ≤ UTOP := by decide
    simp only [regionPages, PGSIZE] at hva ⊢
    omega
  rw [regionAlloc_eq hva]
  apply (regionPages_ok hs0 hregion h).mono
  rintro _ s' ⟨hmid, hspares, hkeep, hdone⟩
  exact ⟨hmid, hspares, hkeep, fun a ha => hdone a ha.1 ha.2⟩

/-- The page of the stack is allocated. -/
theorem stackAlloc_ok (h : Midway E avail e pg s0 (m + 3) s) :
  (regionAlloc pg (BitVec.ofNat 32 (USTACKTOP - PGSIZE)) (BitVec.ofNat 32 PGSIZE)).EndsUnless E s
    (fun _ s' => Midway E avail e pg s0 (m + 1) s' ∧ (E ∨ StackRemapped e s s')
      ∧ (∀ a, Writable (s.ptes a) → Writable (s'.ptes a))
      ∧ ∀ a : Word, a.toNat / PGSIZE = USTACKTOP / PGSIZE - 1 → Writable (s'.pteAt e a))
  := by
  have heq : regionAlloc pg (BitVec.ofNat 32 (USTACKTOP - PGSIZE)) (BitVec.ofNat 32 PGSIZE)
      = forUp 0 (4096 * 1) (fun k => regionAllocAt pg
        (BitVec.ofNat 32 (4096 * (USTACKTOP / PGSIZE - 1)) + BitVec.ofNat 32 k)) := by
    have hinit : ROUNDDOWN (BitVec.ofNat 32 (USTACKTOP - PGSIZE)).toNat PGSIZE
        = 4096 * (USTACKTOP / PGSIZE - 1) := by decide
    have hcount : ((BitVec.ofNat 32 (ROUNDUP (BitVec.ofNat 32 (USTACKTOP - PGSIZE)
          + BitVec.ofNat 32 PGSIZE).toNat PGSIZE)).toInt
        - (BitVec.ofNat 32 (4096 * (USTACKTOP / PGSIZE - 1))).toInt).toNat = 4096 * 1 := by decide
    rw [regionAlloc]
    simp only [hinit, hcount]
  have hregion : 4096 * (USTACKTOP / PGSIZE - 1 + 1) ≤ UTOP := by decide
  rw [heq]
  have hn : m + 3 = 2 * 1 + m + 1 := by omega
  rw [hn] at h
  have hb : (BitVec.ofNat 32 (USTACKTOP - PGSIZE)).toNat < UTOP := by decide
  have hpage : (BitVec.ofNat 32 (USTACKTOP - PGSIZE)).toNat / PGSIZE = USTACKTOP / PGSIZE - 1 := by
    decide
  apply ((regionPages_ok hs0 hregion h).and (regionPage_remaps_all hs0 hregion h hb hpage)).mono
  rintro _ s' ⟨⟨hmid, hspares, hkeep, hdone⟩, hremaps⟩
  refine ⟨hmid, ?_, hkeep, ?_⟩
  · obtain hE | hspares := hspares
    · exact Or.inl hE
    · refine hremaps.imp_right ?_
      intro hremaps
      refine ⟨?_, hremaps⟩
      apply hspares.mono
      intro n hn
      omega
  · intro a ha
    apply hdone a
    · exact Nat.le_of_eq ha.symm
    · exact ha ▸ Nat.lt_succ_self _

end Regions

/-! ### Writing a range -/

/-- A byte is written, unless it may not be. -/
theorem kernStore_ends {n : Nat} (h : Midway E avail e pg s0 n s) {va : Word}
    (hva : va.toNat < UTOP) (hw : E ∨ Writable (s.pteAt e va)) (b : Byte) :
  (kernStore pg va b).EndsUnless E s
    (fun _ s' => UserStored e s s' ∧ Spares e (fun n => n = va.toNat / PGSIZE) s s')
  := by
  by_cases hwr : Writable (s.pteAt e va)
  · obtain ⟨s', heq, hst⟩ := kernStore_ok h.wf h.dir hva hwr b
    rw [endsUnless_of_eq heq]
    exact ⟨hst, kernStore_spares h.wf h.dir hva hwr b heq⟩
  · exact endsUnless_of_error (kernStore_fault h.wf h.dir hva hwr b) (hw.resolve_right hwr)

/-- A range is written, unless it may not be. -/
theorem storeLoop_ok {n count : Nat} (P : Nat → Prop) (h : Midway E avail e pg s0 n s) (dst : Word)
    (f : Nat → Byte) (hw : ∀ i < count, (dst + BitVec.ofNat 32 i).toNat < UTOP
      ∧ P ((dst + BitVec.ofNat 32 i).toNat / PGSIZE)
      ∧ (E ∨ Writable (s.pteAt e (dst + BitVec.ofNat 32 i)))) :
  (forUp 0 count (fun i => kernStore pg (dst + BitVec.ofNat 32 i) (f i))).EndsUnless E s
    (fun _ s' => UserStored e s s' ∧ Spares e P s s')
  := by
  apply EndsUnless.forUp (fun _ s' => UserStored e s s' ∧ Spares e P s s')
  · rintro i t _ hi ⟨hst, hspares⟩
    obtain ⟨l, hl⟩ := h.wf.mem
    obtain ⟨hva, hP, hwr⟩ := hw i (by omega)
    apply (kernStore_ends (h.stored hst) hva _ _).mono
    · rintro _ _ ⟨hst', hspares'⟩
      use hst.trans hl hst'
      apply hspares.trans
      apply hspares'.mono
      rintro _ rfl
      exact hP
    · refine hwr.imp_right ?_
      rw [← ptes_pteAddr s e hva, ← ptes_pteAddr t e hva, hst.ptes hl]
      exact id
  · exact ⟨.refl e s, .refl e P s⟩

end Root

end Jos
