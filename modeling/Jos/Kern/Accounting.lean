import Jos.Kern.Boot
import Jos.Kern.PageCalls
import Jos.Kern.Sched

/-!
# Accounting for physical pages

The page allocator is used by the kernel itself and, through system calls, by
environments.  A ledger is a kernel together with what the code that calls the allocator
has in hand: the pages it has taken and not yet mapped, and the references it has counted
itself.  A run starts after boot and makes any calls in any order, each of them one its
contract allows.

In every state of a run the counter of a page is the number of its mappings below
`UTOP`, one more for a page of the paging structures, and the references in hand; a
page is on the free list once if nothing refers to it and it is not in hand, and not on
the list otherwise; and every call its contract allows returns.  All this depends on one
condition: no environment is created while every one is in use.  `env_init` links the
last environment to what lies behind `envs`, so that the list of free environments is
never empty.
-/

namespace Jos

open Bytes

variable {avail held : Finset Nat} {own : Nat → Nat} {l fl : List Nat} {s s' s'' : Kernel}

/-! ### What a page is used for -/

/-- A place that maps a page below `UTOP`. -/
def Slot.Maps : Slot → Prop
  | page _ _ _ => True
  | _ => False

instance : DecidablePred Slot.Maps
  | .dir _ => isFalse id
  | .table _ _ => isFalse id
  | .page _ _ _ => isTrue trivial
  | .kern _ => isFalse id

theorem Slot.maps_iff (x : Slot) :
  x.Maps ↔ ¬ x.Owns
  := by
  cases x with
  | dir e => simp [Slot.Maps, Slot.Owns]
  | table e d => simp [Slot.Maps, Slot.Owns]
  | page e d t => simp [Slot.Maps, Slot.Owns]
  | kern d => simp [Slot.Maps, Slot.Owns]

namespace Kernel

/-- The number of present page table entries below `UTOP` that point to the page `p`, in
the address spaces of all live environments. -/
def mappings (s : Kernel) (p : Nat) : Nat :=
  refCount (slots.filter Slot.Maps) s.slotRef p

/-- `p` is a page directory or a page table in use. -/
def IsPaging (s : Kernel) (p : Nat) : Prop :=
  ∃ x, x.Owns ∧ s.slotRef x = some p

/-- The references to a page are its mappings, and one for its use as a page table or
page directory. -/
theorem refs_eq (h : MemInv avail held own l s) (p : Nat) :
  (s.IsPaging p → s.refs p = s.mappings p + 1) ∧ (¬ s.IsPaging p → s.refs p = s.mappings p)
  := by
  constructor
  · rintro ⟨x, hx, hp⟩
    have hone : s.refs p = 1 := by
      apply refCount.eq_one (mem_slots x) hp
      intro y _ hy
      apply h.balanced.owned x y p hx hp hy
    have hzero : s.mappings p = 0 := by
      rw [mappings, refCount.eq_zero_iff]
      intro y hy hr
      have hm := (Finset.mem_filter.mp hy).2
      obtain rfl := h.balanced.owned x y p hx hp hr
      apply (Slot.maps_iff y).mp hm hx
    rw [hone, hzero]
  · intro hn
    rw [refs, mappings, refCount, refCount, Finset.filter_filter]
    congr 1
    apply Finset.filter_congr
    intro x _
    rw [Slot.maps_iff]
    constructor
    · intro hp
      use fun hx => hn ⟨x, hx, hp⟩
    · intro hp
      apply hp.2

end Kernel

/-! ### Calls -/

/-- A kernel, the pages the calling code has in hand, and the references it has counted. -/
structure Ledger where
  kernel : Kernel
  held : Finset Nat := ∅
  own : Nat → Nat := fun _ => 0

/-- The calls that use the page allocator. Address spaces are named by the environment. -/
inductive Call where
  | pageAlloc
  | pageIncref (pp : Nat)
  | pageInsert (e pp : Nat) (va perm : Word)
  | pageRemove (e : Nat) (va : Word)
  | pageDecref (pp : Nat)
  | envAlloc (parentId : Word)
  | envGuestAlloc (parentId : Word)
  | envFree (e : Nat)
  | envRun (e : Nat)
  | sysPageAlloc (envid va perm : Word)
  | sysPageMap (srcenvid srcva dstenvid dstva perm : Word)
  | sysPageUnmap (envid va : Word)

namespace Ledger

/-- A page that may be referred to once more: it is in hand or in use, and is not a page
of the paging structures. -/
def Usable (avail : Finset Nat) (g : Ledger) (pp : Nat) : Prop :=
  pp ∈ avail ∧ (pp ∈ g.held ∨ 0 < g.kernel.refs pp + g.own pp) ∧ ¬ g.kernel.IsPaging pp

/-- The contract of a call. -/
def Meets (avail : Finset Nat) (g : Ledger) : Call → Prop
  | .pageAlloc => True
  | .pageIncref pp => g.Usable avail pp
  | .pageInsert e pp va perm =>
      g.kernel.Live e ∧ g.Usable avail pp ∧ va.toNat < UTOP ∧ perm.toNat < 4096
  | .pageRemove e va => g.kernel.Live e ∧ va.toNat < UTOP
  | .pageDecref pp => 0 < g.own pp
  | .envAlloc _ => True
  | .envGuestAlloc _ => True
  | .envFree e => g.kernel.Live e
  | .envRun e => g.kernel.Live e
  | .sysPageAlloc _ _ _ => ∃ cur, g.kernel.curenv = some cur ∧ g.kernel.Live cur
  | .sysPageMap _ _ _ _ _ => ∃ cur, g.kernel.curenv = some cur ∧ g.kernel.Live cur
  | .sysPageUnmap _ _ => ∃ cur, g.kernel.curenv = some cur ∧ g.kernel.Live cur

/-- The ledger after a call that returned, or handed control to an environment. -/
def after {α : Type} (m : Prog Kernel α) (g : Ledger) (f : α → Ledger → Ledger) :
    Option Ledger :=
  match m g.kernel with
  | .ok (a, s') => some (f a { g with kernel := s' })
  | .error (.leave s') => some { g with kernel := s' }
  | .error _ => none

/-- Make a call. A page that was allocated is in hand, and a page that was mapped or
counted is no longer. -/
def exec (g : Ledger) : Call → Option Ledger
  | .pageAlloc => g.after Jos.pageAlloc (fun r g => match r with
      | some pp => { g with held := insert pp g.held }
      | none => g)
  | .pageIncref pp => g.after (Jos.pageIncref pp) (fun _ g =>
      { g with held := g.held.erase pp, own := Function.update g.own pp (g.own pp + 1) })
  | .pageInsert e pp va perm => g.after (do
        let pgdir ← envPgdirOf e
        Jos.pageInsert pgdir pp va perm) (fun r g =>
      if r = 0 then { g with held := g.held.erase pp } else g)
  | .pageRemove e va => g.after (do
        let pgdir ← envPgdirOf e
        Jos.pageRemove pgdir va) (fun _ g => g)
  | .pageDecref pp => g.after (Jos.pageDecref pp) (fun _ g =>
      { g with own := Function.update g.own pp (g.own pp - 1) })
  | .envAlloc parentId => g.after (Jos.envAlloc parentId) (fun _ g => g)
  | .envGuestAlloc parentId => g.after (Jos.envGuestAlloc parentId) (fun _ g => g)
  | .envFree e => g.after (Jos.envFree e) (fun _ g => g)
  | .envRun e => g.after (Jos.envRun e : Prog Kernel Unit) (fun _ g => g)
  | .sysPageAlloc envid va perm => g.after (Jos.sysPageAlloc envid va perm) (fun _ g => g)
  | .sysPageMap srcenvid srcva dstenvid dstva perm =>
      g.after (Jos.sysPageMap srcenvid srcva dstenvid dstva perm) (fun _ g => g)
  | .sysPageUnmap envid va => g.after (Jos.sysPageUnmap envid va) (fun _ g => g)

/-- No page has more references than its counter can count. -/
def Fits (avail : Finset Nat) (g : Ledger) : Prop :=
  g.kernel.Fits avail g.own

/-- The pages `avail` are accounted for. -/
structure Accounted (avail : Finset Nat) (g : Ledger) : Prop where
  ppRef : ∀ p ∈ avail,
    (g.kernel.IsPaging p → (g.kernel.pages p).ppRef = g.kernel.mappings p + 1 + g.own p) ∧
    (¬ g.kernel.IsPaging p → (g.kernel.pages p).ppRef = g.kernel.mappings p + g.own p)
  free : ∃ l, Chain (fun p => (g.kernel.pages p).ppLink) g.kernel.pageFreeList l
    ∧ (∀ p ∈ l, p ∈ avail)
    ∧ (∀ p ∈ avail, l.count p = if (g.kernel.pages p).ppRef = 0 ∧ p ∉ g.held then 1 else 0)

/-- The ledgers of the runs that start after boot and whose calls meet their contracts
and the condition `ok`. -/
inductive Run (avail : Finset Nat) (ok : Ledger → Call → Prop) : Ledger → Prop
  | boot {s s' : Kernel} (hboot : AfterMemInit avail s) (hinit : envInit s = .ok ((), s')) :
    Run avail ok { kernel := s' }
  | call {g g' : Ledger} {c : Call} (hrun : Run avail ok g) (hmeets : g.Meets avail c)
    (hok : ok g c) (hexec : g.exec c = some g') (hfits : g'.Fits avail) :
    Run avail ok g'

/-- An environment is only created while some environment is not in use. -/
def Room (g : Ledger) : Call → Prop
  | .envAlloc _ => ∃ e < NENV, (g.kernel.envs e).envStatus = .ENV_FREE
  | .envGuestAlloc _ => ∃ e < NENV, (g.kernel.envs e).envStatus = .ENV_FREE
  | _ => True

/-! ### What a call does to a well-formed kernel -/

variable {g : Ledger} {α : Type} {m : Prog Kernel α} {f : α → Ledger → Ledger}

theorem after_ok {a : α} (h : m g.kernel = .ok (a, s')) :
  g.after m f = some (f a { g with kernel := s' })
  := by rw [after, h]

theorem after_leave (h : m g.kernel = .error (.leave s')) :
  g.after m f = some { g with kernel := s' }
  := by rw [after, h]

/-- A usable page may be mapped. -/
theorem Usable.mappable {pp : Nat} (h : g.Usable avail pp)
    (hl : MemInv avail g.held g.own l g.kernel) :
  g.kernel.Mappable avail l pp
  := by
  obtain ⟨hpa, huse, hpaging⟩ := h
  use hpa
  constructor
  · intro hpl
    obtain ⟨-, hheld, href, hown⟩ := hl.refs_free hpl
    obtain hh | hpos := huse
    · apply hheld hh
    · omega
  · intro y hy ho
    apply hpaging ⟨y, ho, hy⟩

/-- An environment that is free leaves room to create one. -/
theorem head_ne_of_free (hi : EnvInv fl s)
    (h : ∃ e < NENV, (s.envs e).envStatus = .ENV_FREE) :
  s.envFreeList ≠ some NENV
  := by
  obtain ⟨e, he, hst⟩ := h
  have hmem := (hi.mem_free e).mpr ⟨he, hst⟩
  cases hfl : fl with
  | nil =>
      rw [hfl] at hmem
      cases hmem
  | cons e' fl' =>
      have hc := hi.chain
      rw [hfl] at hc
      have hlt := ((hi.mem_free e').mp (by rw [hfl]; apply List.mem_cons_self)).1
      rw [hc.1]
      intro heq
      have := Option.some.inj heq
      omega

/-- Creating an environment while there is room keeps the kernel well formed. -/
theorem envAllocType_wf (h : Wf avail held own s)
    (hroom : ∃ e < NENV, (s.envs e).envStatus = .ENV_FREE) (type : EnvType) (parentId : Word) :
  ∃ r s', envAllocType type parentId s = .ok (r, s') ∧ Wf avail held own s'
  := by
  obtain ⟨l, hl⟩ := h.mem
  obtain ⟨fl, hfl⟩ := h.env
  obtain ⟨-, heq⟩ | ⟨e, p, l', fl', s', -, -, heq, hc, hmem, henv⟩ :=
    envAllocType_ok hl hfl (head_ne_of_free hfl hroom) type parentId
  · use .error (-E_NO_MEM), s
  · use .ok e.val, s', heq
    constructor
    case mem => use l'
    case env => use fl'
    case dirs => apply h.dirs.created hc hmem

/-- A call that meets its contract returns and keeps the kernel well formed. -/
theorem exec_ok (h : Wf avail g.held g.own g.kernel) (hfits : g.Fits avail) {c : Call}
    (hmeets : g.Meets avail c) (hroom : g.Room c) :
  ∃ g', g.exec c = some g' ∧ Wf avail g'.held g'.own g'.kernel
  := by
  obtain ⟨l, hl⟩ := h.mem
  obtain ⟨fl, hfl⟩ := h.env
  cases c with
  | pageAlloc =>
      cases l with
      | nil =>
          have heq := pageAlloc_eq_none (hl.pageFreeList_eq_none.mpr rfl)
          use g
          constructor
          · rw [exec, after_ok heq]
          · apply h
      | cons p l =>
          have hlt := hl.avail_lt p (hl.refs_free List.mem_cons_self).1
          have heq := pageAlloc_eq_some hl.chain.1 hlt hl.npages_le
          use { g with kernel := g.kernel.taken p, held := insert p g.held }
          constructor
          · rw [exec, after_ok heq]
          · apply h.edit (Edit.taken hl) ⟨l, hl.taken⟩
  | pageIncref pp =>
      have hm := hmeets.mappable hl
      use { g with
        kernel := g.kernel.incref pp
        held := g.held.erase pp
        own := Function.update g.own pp (g.own pp + 1) }
      constructor
      · rw [exec, after_ok (pageIncref_eq pp)]
      · have hedit : Edit g.held g.kernel (g.kernel.incref pp) g.kernel.ptes :=
          (Edit.refl g.kernel).incref pp
        apply h.edit hedit ⟨l, hl.incref hm.1 hm.2.1⟩
  | pageInsert e pp va perm =>
      obtain ⟨hlive, huse, hva, hperm⟩ := hmeets
      obtain ⟨pg, henvpg, hpg⟩ := hlive.pgdir hfl
      have hbind : (do
          let pgdir ← envPgdirOf e
          Jos.pageInsert pgdir pp va perm) g.kernel = Jos.pageInsert pg pp va perm g.kernel :=
        Prog.bind_of_eq (envPgdirOf_eq henvpg)
      obtain ⟨heq, -⟩ | ⟨s', heq, hedit, hinv⟩ :=
        pageInsert_ok (e := ⟨e, hlive.1⟩) hl hpg hva (huse.mappable hl) perm
      · use g
        constructor
        · rw [exec, after_ok (hbind.trans heq)]
          rfl
        · apply h
      · use { g with kernel := s', held := g.held.erase pp }
        constructor
        · rw [exec, after_ok (hbind.trans heq)]
          rfl
        · apply h.edit hedit (hinv hperm hfits)
  | pageRemove e va =>
      obtain ⟨hlive, hva⟩ := hmeets
      obtain ⟨pg, henvpg, hpg⟩ := hlive.pgdir hfl
      obtain ⟨s', heq, hedit, -, hinv⟩ := pageRemove_ok hl (e := ⟨e, hlive.1⟩) hpg hva
      have hbind : (do
          let pgdir ← envPgdirOf e
          Jos.pageRemove pgdir va) g.kernel = Jos.pageRemove pg va g.kernel :=
        Prog.bind_of_eq (envPgdirOf_eq henvpg)
      use { g with kernel := s' }
      constructor
      · rw [exec, after_ok (hbind.trans heq)]
      · apply h.edit hedit
        apply hinv
        intro q hq
        have hx : g.kernel.slotRef (.page ⟨e, hlive.1⟩ ⟨PDX va, PDX_lt_of_lt_UTOP hva⟩
            ⟨PTX va, PTX_lt va⟩) = some q := hq
        have := hfits q (Kernel.mem_avail hl hx)
        omega
  | pageDecref pp =>
      have hpa := hl.balanced.own_avail pp hmeets
      have hlink : (g.kernel.pages pp).ppLink = none := by
        apply hl.unlinked pp hpa
        intro hpl
        obtain ⟨-, -, -, hown⟩ := hl.refs_free hpl
        have : 0 < g.own pp := hmeets
        omega
      use { g with
        kernel := g.kernel.decref pp
        own := Function.update g.own pp (g.own pp - 1) }
      constructor
      · rw [exec, after_ok (pageDecref_eq hlink)]
      · have hedit : Edit g.held g.kernel (g.kernel.decref pp) g.kernel.ptes :=
          (Edit.refl g.kernel).decref pp
        apply h.edit hedit
        apply hl.decref hmeets
        apply Nat.le_succ_of_le (hfits pp hpa)
  | envAlloc parentId =>
      obtain ⟨r, s', heq, hwf⟩ := envAllocType_wf h hroom .ENV_TYPE_USER parentId
      use { g with kernel := s' }
      constructor
      · rw [exec, envAlloc, after_ok heq]
      · apply hwf
  | envGuestAlloc parentId =>
      obtain ⟨r, s', heq, hwf⟩ := envAllocType_wf h hroom .ENV_TYPE_GUEST parentId
      use { g with kernel := s' }
      constructor
      · rw [exec, envGuestAlloc, after_ok heq]
      · apply hwf
  | envFree e =>
      obtain ⟨s', heq, -, hwf⟩ := h.freed (e := ⟨e, hmeets.1⟩) hmeets hfits
      use { g with kernel := s' }
      constructor
      · rw [exec, after_ok heq]
      · apply hwf
  | envRun e =>
      have heq := envRun_eq (α := Unit) (hfl.pgdir e hmeets)
      use { g with kernel := g.kernel.running e }
      constructor
      · rw [exec, after_leave heq]
      · apply h.running hmeets
  | sysPageAlloc envid va perm =>
      obtain ⟨cur, hcur, hlive⟩ := hmeets
      obtain ⟨r, s', heq, hinv, hdone⟩ := sysPageAlloc_ok hl hfl hcur hlive envid va perm
      use { g with kernel := s' }
      constructor
      · rw [exec, after_ok heq]
      · obtain ⟨-, -, hedit⟩ | ⟨e, hva, p, -, -, -, -, -, hedit, -⟩ := hdone
        · apply h.edit hedit (hinv hfits)
        · apply h.edit hedit (hinv hfits)
  | sysPageMap srcenvid srcva dstenvid dstva perm =>
      obtain ⟨cur, hcur, hlive⟩ := hmeets
      obtain ⟨r, s', heq, hinv, hdone⟩ :=
        sysPageMap_ok hl hfl hcur hlive srcenvid srcva dstenvid dstva perm
      use { g with kernel := s' }
      constructor
      · rw [exec, after_ok heq]
      · obtain ⟨-, hedit⟩ | ⟨se, de, hva, p, -, -, -, -, -, -, -, -, hedit⟩ := hdone
        · apply h.edit hedit (hinv hfits)
        · apply h.edit hedit (hinv hfits)
  | sysPageUnmap envid va =>
      obtain ⟨cur, hcur, hlive⟩ := hmeets
      obtain ⟨r, s', heq, hinv, hdone⟩ := sysPageUnmap_ok hl hfl hcur hlive envid va
      use { g with kernel := s' }
      constructor
      · rw [exec, after_ok heq]
      · obtain ⟨-, rfl⟩ | ⟨e, hva, -, -, -, hedit⟩ := hdone
        · apply h
        · apply h.edit hedit (hinv hfits)

/-! ### Runs -/

/-- When no page is mapped twice, no page has more than two references. -/
theorem fits_of_mappings_le (h : Wf avail ∅ (fun _ => 0) s) (h1 : ∀ p, s.mappings p ≤ 1) :
  s.Fits avail (fun _ => 0)
  := by
  intro p _
  obtain ⟨l, hl⟩ := h.mem
  obtain ⟨hyes, hno⟩ := Kernel.refs_eq hl p
  have hle : s.refs p ≤ 2 := by
    by_cases hp : s.IsPaging p
    · rw [hyes hp]
      exact Nat.succ_le_succ (h1 p)
    · rw [hno hp]
      exact Nat.le_succ_of_le (h1 p)
  simp only
  apply Nat.le_trans hle
  decide

/-- After boot no page has more than one reference. -/
theorem fits_of_mappings (h : Wf avail ∅ (fun _ => 0) s) (h0 : ∀ p, s.mappings p = 0) :
  s.Fits avail (fun _ => 0)
  := by
  apply fits_of_mappings_le h
  intro p
  rw [h0 p]
  decide

/-- A slot that maps is that of an entry. -/
theorem slot_of_maps {x : Slot} (hx : x ∈ slots.filter Slot.Maps) :
  ∃ e d t, x = .page e d t
  := by
  have hmaps := (Finset.mem_filter.mp hx).2
  cases x with
  | page e d t => use e, d, t
  | dir e => exact hmaps.elim
  | table e d => exact hmaps.elim
  | kern d => exact hmaps.elim

/-- No page is mapped when no entry is present. -/
theorem mappings_eq_zero_iff :
  (∀ p, s.mappings p = 0) ↔ ∀ a, refOf (s.ptes a) = none
  := by
  constructor
  · rintro h ⟨e, d, t⟩
    cases href : refOf (s.ptes (e, d, t)) with
    | none => rfl
    | some p =>
        have hzero := refCount.eq_zero_iff.mp (h p)
        have hmem : Slot.page e d t ∈ slots.filter Slot.Maps :=
          Finset.mem_filter.mpr ⟨mem_slots _, trivial⟩
        exact (hzero _ hmem href).elim
  · intro h p
    rw [Kernel.mappings, refCount.eq_zero_iff]
    intro x hx
    obtain ⟨e, d, t, rfl⟩ := slot_of_maps hx
    have hnone : s.slotRef (.page e d t) = none := h (e, d, t)
    rw [hnone]
    simp

/-- When only one entry is present no page is mapped twice. -/
theorem mappings_le_one {a : PteAddr} (h : ∀ b, b ≠ a → refOf (s.ptes b) = none) (p : Nat) :
  s.mappings p ≤ 1
  := by
  have hpage : ∀ x ∈ slots.filter Slot.Maps, s.slotRef x = some p →
      x = .page a.1 a.2.1 a.2.2 := by
    intro x hx href
    obtain ⟨e, d, t, rfl⟩ := slot_of_maps hx
    by_cases hb : ((e, d, t) : PteAddr) = a
    · rw [← hb]
    · have hnone : s.slotRef (.page e d t) = none := h (e, d, t) hb
      rw [hnone] at href
      cases href
  rw [Kernel.mappings, refCount]
  apply Finset.card_le_one.mpr
  intro x hx y hy
  obtain ⟨hx, hxp⟩ := Finset.mem_filter.mp hx
  obtain ⟨hy, hyp⟩ := Finset.mem_filter.mp hy
  rw [hpage x hx hxp, hpage y hy hyp]

/-- The first page an environment asks for is mapped, when two pages are free. -/
theorem sysPageAlloc_first (h : Wf avail ∅ (fun _ => 0) s) {e : Fin NENV}
    (hcur : s.curenv = some e.val) (hlive : s.Live e) (hunset : ∀ p, s.mappings p = 0)
    (hl : MemInv avail ∅ (fun _ => 0) l s) (hlen : 2 ≤ l.length) (va perm : Word)
    (hva : UserPageAddr va) (hperm : ProperPerm perm) :
  ∃ (s' : Kernel) (p : Nat) (hva' : va.toNat < UTOP), sysPageAlloc 0 va perm s = .ok (0, s')
    ∧ p ∈ l
    ∧ Edit ∅ s s' (Function.update s.ptes (pteAddr e va hva') (page2pa p ||| perm ||| PTE_P))
    ∧ (∀ o < PGSIZE, s'.mem (p * PGSIZE + o) = 0)
    ∧ Wf avail ∅ (fun _ => 0) s' ∧ s'.Fits avail (fun _ => 0) ∧ s'.mappings p = 1
  := by
  obtain ⟨fl, hfl⟩ := h.env
  obtain ⟨r, s', heq, hinv, hdone⟩ := sysPageAlloc_ok hl hfl hcur hlive 0 va perm
  obtain ⟨l', hl'⟩ := hinv (fits_of_mappings h hunset)
  have hself : s.findEnv e.val 0 true = some e.val := rfl
  obtain ⟨hr, hmem, -⟩ | ⟨e', hva', p, rfl, -, -, hfind, hp, hedit, hzero⟩ := hdone
  · -- an error would be that of no memory
    have herr : r = -E_NO_MEM := by
      rw [hr, pageAllocError, if_neg, if_neg]
      · rw [hself]
        simp
      · rintro (hbad | hbad)
        · exact hbad hva
        · exact hbad hperm
    have hshort := hmem herr
    omega
  · obtain rfl : e = e' := Fin.ext (Option.some.inj (hself.symm.trans hfind))
    have hwf := h.edit hedit ⟨l', hl'⟩
    have hle : ∀ q, s'.mappings q ≤ 1 := by
      apply mappings_le_one (a := pteAddr e va hva')
      intro b hb
      rw [hedit.ptes, Function.update_of_ne hb]
      exact mappings_eq_zero_iff.mp hunset b
    have hpos : 0 < s'.mappings p := by
      have hlt := hl.avail_lt p (hl.refs_free hp).1
      have hnpages := hl.npages_le
      rw [Kernel.mappings, refCount.pos_iff]
      use .page e ⟨PDX va, PDX_lt_of_lt_UTOP hva'⟩ ⟨PTX va, PTX_lt va⟩,
        Finset.mem_filter.mpr ⟨mem_slots _, trivial⟩
      change refOf (s'.ptes (pteAddr e va hva')) = some p
      rw [hedit.ptes, Function.update_self]
      exact refOf_mk (by omega) hperm.lt
    use s', p, hva', heq, hp, hedit, hzero, hwf, fits_of_mappings_le hwf hle
    exact Nat.le_antisymm (hle p) hpos

/-- After boot nothing is mapped below `UTOP`. -/
theorem mappings_of_init (hinit : envInit s = .ok ((), s')) (p : Nat) :
  s'.mappings p = 0
  := by
  obtain ⟨s1, heq, -, hfree⟩ := envInit_ok s
  obtain rfl := (Prog.ok_inj heq hinit).2
  rw [Kernel.mappings, refCount.eq_zero_iff]
  intro x hx
  rw [slotRef_of_free (fun e he => (hfree e he).1)]
  · simp
  · rintro d rfl
    apply (Finset.mem_filter.mp hx).2

/-- In every run that creates environments only while there is room, the kernel stays well
formed. -/
theorem Run.wf (h : Run avail Room g) :
  Wf avail g.held g.own g.kernel ∧ g.Fits avail
  := by
  induction h with
  | boot hboot hinit =>
      have hwf := (hboot.wf hinit).1
      use hwf
      apply fits_of_mappings hwf (mappings_of_init hinit)
  | call _ hmeets hok hexec hfits ih =>
      obtain ⟨g', hexec', hwf⟩ := exec_ok ih.1 ih.2 hmeets hok
      rw [hexec] at hexec'
      obtain rfl := Option.some.inj hexec'
      use hwf

/-- The pages are accounted for when the page allocator is in order. -/
theorem accounted_of_memInv (hl : MemInv avail g.held g.own l g.kernel) (hfits : g.Fits avail) :
  g.Accounted avail
  := by
  have hcount : ∀ p ∈ avail, (g.kernel.pages p).ppRef = g.kernel.refs p + g.own p := by
    intro p hp
    have hle := hfits p hp
    have hc := hl.balanced.counted p hp
    rw [Nat.mod_eq_of_lt (by rw [Store.total]; apply Nat.lt_succ_of_le hle)] at hc
    apply hc
  constructor
  case ppRef =>
    intro p hp
    obtain ⟨hyes, hno⟩ := Kernel.refs_eq hl p
    rw [hcount p hp]
    constructor
    · intro h1
      rw [hyes h1]
    · intro h1
      rw [hno h1]
  case free =>
    use l, hl.chain
    constructor
    · intro p hp
      apply (hl.refs_free hp).1
    · intro p hp
      split
      case isTrue h0 =>
        apply List.count_eq_one_of_mem hl.balanced.nodup
        apply (hl.balanced.mem_free p).mpr
        use hp, h0.2
        rw [hcount p hp] at h0
        apply h0.1
      case isFalse h0 =>
        apply List.count_eq_zero_of_not_mem
        intro hpl
        obtain ⟨-, hheld, href, hown⟩ := hl.refs_free hpl
        apply h0
        rw [hcount p hp]
        use by omega

/-- In a well-formed kernel the pages are accounted for. -/
theorem accounted (h : Wf avail g.held g.own g.kernel) (hfits : g.Fits avail) :
  g.Accounted avail
  := by
  obtain ⟨l, hl⟩ := h.mem
  exact accounted_of_memInv hl hfits

/-- What is left after `k` environments are created on a kernel with `NENV + 1` free pages:
pages and free environments, and no mappings. -/
structure Crowded (avail : Finset Nat) (k : Nat) (g : Ledger) : Prop where
  reached : Run avail Room g
  held : g.held = ∅
  own : g.own = fun _ => 0
  dirs : DirInv g.kernel
  free : ∃ l fl, MemInv avail ∅ (fun _ => 0) l g.kernel ∧ EnvInv fl g.kernel
    ∧ l.length + k = NENV + 1 ∧ fl.length + k = NENV
  mappings : ∀ p, g.kernel.mappings p = 0

theorem Crowded.wf {k : Nat} (h : Crowded avail k g) :
  Wf avail ∅ (fun _ => 0) g.kernel
  := by
  obtain ⟨l, fl, hl, hfl, -, -⟩ := h.free
  constructor
  case mem => use l
  case env => use fl
  case dirs => apply h.dirs

/-- While fewer than `NENV` environments are in use one more can be created. -/
theorem Crowded.next {k : Nat} (h : Crowded avail k g) (hk : k < NENV) :
  ∃ g', g.exec (.envAlloc 0) = some g' ∧ Crowded avail (k + 1) g'
    ∧ ∃ e : Fin NENV, g'.kernel.Live e
  := by
  obtain ⟨l, fl, hl, hfl, hlen, hfllen⟩ := h.free
  have hhead : g.kernel.envFreeList ≠ some NENV := by
    cases fl with
    | nil =>
        simp only [List.length_nil] at hfllen
        omega
    | cons e fl =>
        have hlt := ((hfl.mem_free e).mp List.mem_cons_self).1
        rw [hfl.chain.1]
        intro heq
        have := Option.some.inj heq
        omega
  obtain ⟨hnil, -⟩ | ⟨e, p, l', fl', s', hfl', hl', heq, hc, hmem, henv⟩ :=
    envAllocType_ok hl hfl hhead .ENV_TYPE_USER 0
  · rw [hnil, List.length_nil] at hlen
    omega
  have hmappings : ∀ q, s'.mappings q = 0 := by
    intro q
    rw [← h.mappings q, Kernel.mappings, Kernel.mappings]
    apply refCount.congr
    intro x hx
    rw [hc.slotRef, Function.update_of_ne]
    rintro rfl
    apply (Finset.mem_filter.mp hx).2
  have hwf : Wf avail ∅ (fun _ => 0) s' := by
    constructor
    case mem => use l'
    case env => use fl'
    case dirs => apply h.dirs.created hc hmem
  have hexec : g.exec (.envAlloc 0) = some { g with kernel := s' } := by
    rw [exec, envAlloc, after_ok heq]
  have hlive : s'.Live e := by
    use e.isLt
    rw [hc.envs, Function.update_self]
    simp [newEnv]
  use { g with kernel := s' }, hexec
  refine ⟨?_, e, hlive⟩
  constructor
  case reached =>
    have hmeets : g.Meets avail (.envAlloc 0) := trivial
    have hroom : g.Room (.envAlloc 0) := by
      use e
      apply (hfl.mem_free e).mp
      rw [hfl']
      apply List.mem_cons_self
    apply h.reached.call hmeets hroom hexec
    rw [Fits, h.own]
    apply fits_of_mappings hwf hmappings
  case held => apply h.held
  case own => apply h.own
  case dirs => apply hwf.dirs
  case free =>
    use l', fl', hmem, henv
    rw [hl', List.length_cons] at hlen
    rw [hfl', List.length_cons] at hfllen
    omega
  case mappings => apply hmappings

/-- After boot no environment is in use. -/
theorem crowded_boot :
  ∃ s, envInit (bootKernel (NENV + 1)) = .ok ((), s)
    ∧ Crowded (bootAvail (NENV + 1)) 0 { kernel := s }
  := by
  have hboot := bootKernel_afterMemInit (n := NENV + 1) (by decide)
  obtain ⟨s, heq, ⟨envs, hs⟩, hfree⟩ := envInit_ok (bootKernel (NENV + 1))
  have hwf := (hboot.wf heq).1
  use s, heq
  constructor
  case reached => apply Run.boot hboot heq
  case held => rfl
  case own => rfl
  case dirs => apply hwf.dirs
  case free =>
    obtain ⟨l, hl⟩ := hwf.mem
    have hfl : EnvInv (List.range NENV) s := by
      apply envInv_of_init hfree
      rw [hs]
    use l, List.range NENV, hl, hfl
    have hchain := bootKernel_chain (NENV + 1)
    have hlist : s.pageFreeList = (bootKernel (NENV + 1)).pageFreeList := by rw [hs]
    have hpages : s.pages = (bootKernel (NENV + 1)).pages := by rw [hs]
    rw [← hlist, ← hpages] at hchain
    rw [hl.chain.unique hchain, List.length_range', List.length_range]
    constructor
    · rfl
    · rfl
  case mappings => apply mappings_of_init heq

/-- All environments can be in use. -/
theorem crowded {k : Nat} (hk : k ≤ NENV) :
  ∃ g, Crowded (bootAvail (NENV + 1)) k g
  := by
  induction k with
  | zero =>
      obtain ⟨s, -, hs⟩ := crowded_boot
      use { kernel := s }
  | succ k ih =>
      obtain ⟨g, hg⟩ := ih (by omega)
      obtain ⟨g', -, hg', -⟩ := hg.next (by omega)
      use g'

/-- In every run that creates environments only while there is room, all pages are
accounted for after each call, and the next call returns. -/
theorem run_accounted (h : Run avail Room g) :
  g.Accounted avail ∧ ∀ c, g.Meets avail c → g.Room c → ∃ g', g.exec c = some g'
  := by
  obtain ⟨hwf, hfits⟩ := h.wf
  use accounted hwf hfits
  intro c hmeets hroom
  obtain ⟨g', hexec, -⟩ := exec_ok hwf hfits hmeets hroom
  use g'

/-- An environment is created after boot, runs and asks for a page. -/
theorem run_accounted_boot :
  ∃ (s : Kernel) (g1 g2 g3 : Ledger) (e : Nat), envInit (bootKernel (NENV + 1)) = .ok ((), s)
    ∧ ({ kernel := s } : Ledger).exec (.envAlloc 0) = some g1
    ∧ g1.exec (.envRun e) = some g2
    ∧ g2.exec (.sysPageAlloc 0 0 (PTE_P ||| PTE_U ||| PTE_W)) = some g3
    ∧ g3.Accounted (bootAvail (NENV + 1))
    ∧ (∃ p, g3.kernel.mappings p = 1)
    ∧ ∃ g4, g3.exec .pageAlloc = some g4
  := by
  obtain ⟨s, heq, h0⟩ := crowded_boot
  obtain ⟨g1, hexec1, h1, e, hlive⟩ := h0.next (by decide)
  have hwf1 := h1.wf
  obtain ⟨l, fl, hl, hfl, hlen, -⟩ := h1.free
  have hpages : 2 ≤ l.length := by
    rw [NENV] at hlen
    omega
  obtain ⟨k1, _, _⟩ := g1
  obtain rfl := h1.held
  obtain rfl := h1.own
  have hunset : ∀ p, (k1.running e).mappings p = 0 := by
    rw [mappings_eq_zero_iff, Kernel.running_ptes hlive]
    exact mappings_eq_zero_iff.mp h1.mappings
  have hwf2 := hwf1.running hlive
  have hexec2 : (⟨k1, ∅, fun _ => 0⟩ : Ledger).exec (.envRun e)
      = some ⟨k1.running e, ∅, fun _ => 0⟩ := by
    rw [exec, after_leave (envRun_eq (hfl.pgdir e hlive))]
  have hmeets2 : (⟨k1, ∅, fun _ => 0⟩ : Ledger).Meets (bootAvail (NENV + 1)) (.envRun e) := hlive
  have hrun2 := h1.reached.call hmeets2 trivial hexec2 (fits_of_mappings hwf2 hunset)
  have hlive2 : (k1.running e).Live e := by
    use e.isLt
    simp [Kernel.running, Kernel.setEnv]
  obtain ⟨k3, p, -, heq3, -, -, -, -, hfits3, hone⟩ := sysPageAlloc_first hwf2 (e := e) rfl
    hlive2 hunset (hl.running hwf1 hlive) hpages 0 (PTE_P ||| PTE_U ||| PTE_W)
    (by decide) (by decide)
  have hexec3 : (⟨k1.running e, ∅, fun _ => 0⟩ : Ledger).exec
      (.sysPageAlloc 0 0 (PTE_P ||| PTE_U ||| PTE_W)) = some ⟨k3, ∅, fun _ => 0⟩ := by
    rw [exec, after_ok heq3]
  have hcaller : (⟨k1.running e, ∅, fun _ => 0⟩ : Ledger).Meets (bootAvail (NENV + 1))
      (.sysPageAlloc 0 0 (PTE_P ||| PTE_U ||| PTE_W)) := ⟨e, rfl, hlive2⟩
  obtain ⟨hacc, hnext⟩ := run_accounted (hrun2.call hcaller trivial hexec3 hfits3)
  use s, ⟨k1, ∅, fun _ => 0⟩, ⟨k1.running e, ∅, fun _ => 0⟩, ⟨k3, ∅, fun _ => 0⟩, e, heq,
    hexec1, hexec2, hexec3, hacc, ⟨p, hone⟩
  exact hnext .pageAlloc trivial trivial

/-- The runs that meet the condition are among all runs. -/
theorem Run.unconditional {ok : Ledger → Call → Prop} (h : Run avail ok g) :
  Run avail (fun _ _ => True) g
  := by
  induction h with
  | boot hboot hinit => exact .boot hboot hinit
  | call _ hmeets _ hexec hfits ih => exact ih.call hmeets trivial hexec hfits

/-- Not every call that meets its contract returns: when all environments are in use the
next one is looked for behind `envs`. -/
theorem not_run_accounted :
  ¬ ∀ avail g, Run avail (fun _ _ => True) g →
    g.Accounted avail ∧ ∀ c, g.Meets avail c → ∃ g', g.exec c = some g'
  := by
  intro hall
  obtain ⟨g, hg⟩ := crowded (Nat.le_refl NENV)
  obtain ⟨g', hexec⟩ := (hall _ g hg.reached.unconditional).2 (.envAlloc 0) trivial
  obtain ⟨l, fl, hl, hfl, -, hlen⟩ := hg.free
  obtain rfl := List.eq_nil_of_length_eq_zero (l := fl) (by omega)
  have hhead : g.kernel.envFreeList = some NENV := hfl.chain.1
  have hfault : envAlloc 0 g.kernel = .error (.fault (KERNBASE + NENV)) := by
    rw [envAlloc, envAllocType, Prog.get_bind]
    simp only [hhead]
    rfl
  rw [exec, after, hfault] at hexec
  cases hexec

end Ledger

end Jos
