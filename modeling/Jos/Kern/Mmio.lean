import Jos.Kern.Exposed
import Jos.Kern.PageMap

/-!
# Mapping device memory

`mmio_map_region` of `kern/pmap.c` with the arithmetic it is compiled to: sizes and addresses
have 32 bits, and both rounding a size up and adding it to the base of the next region may
wrap.  The test against `MMIOLIM` is made on the wrapped sum.

Where nothing wraps the function is the one that was used at boot, and we follow its calls
from the first on: the regions lie one behind the other in the window for devices, and each
call changes the translation of its own region only.  The page directory maps its own page
tables at `UVPT`, so that the page table of the window shows there from the call on that
makes it.
-/

namespace Jos

open Bytes

namespace Mmio

/-! ### The functions -/

/-- The next multiple of the page size, in 32 bits. -/
def ROUNDUP (a : Word) : Word :=
  let x := a + BitVec.ofNat 32 PGSIZE - 1
  x - x % BitVec.ofNat 32 PGSIZE

/-- Map the physical memory from `pa` on at `va`, in 32 bits. -/
def bootMapRegion (pgdir : Nat) (va size pa perm : Word) : Prog Kernel Unit :=
  Prog.forUp 0 ((ROUNDUP size).toNat / PGSIZE) (fun i =>
    bootMapPage pgdir (ROUNDUP va + BitVec.ofNat 32 (i * PGSIZE))
      (ROUNDUP pa + BitVec.ofNat 32 (i * PGSIZE)) perm)

/-- Map device memory at `base`, and give back where the next is mapped, in 32 bits. -/
def mmioMapRegion (base pa size : Word) : Prog Kernel (Word × Word) :=
  let size := ROUNDUP size
  if (base + size).toNat > MMIOLIM then
    Prog.panic "Size greater than io memory exists\n"
  else do
    let s ← get
    bootMapRegion s.kernPgdir base size pa (PTE_P ||| PTE_W ||| PTE_PCD ||| PTE_PWT)
    pure (base, base + size)

/-! ### Where nothing wraps -/

theorem ROUNDUP_toNat (a : Word) :
  (ROUNDUP a).toNat = (a.toNat + 4095) % 2 ^ 32 / 4096 * 4096
  := by
  have hx : (a + BitVec.ofNat 32 PGSIZE - 1).toNat = (a.toNat + 4095) % 2 ^ 32 := by
    simp only [PGSIZE]
    bv_omega
  have hmod : ((a + BitVec.ofNat 32 PGSIZE - 1) % BitVec.ofNat 32 PGSIZE).toNat
      = (a.toNat + 4095) % 2 ^ 32 % 4096 := by
    rw [BitVec.toNat_umod, hx]
    rfl
  simp only [ROUNDUP]
  rw [BitVec.toNat_sub, hx, hmod]
  omega

/-- The rounded size when rounding does not wrap. -/
theorem ROUNDUP_toNat_of_lt {a : Word} (h : Jos.ROUNDUP a.toNat < 2 ^ 32) :
  (ROUNDUP a).toNat = Jos.ROUNDUP a.toNat
  := by
  rw [ROUNDUP_toNat]
  simp only [Jos.ROUNDUP, PGSIZE] at h ⊢
  omega

/-- A multiple of the page size is rounded to itself. -/
theorem ROUNDUP_of_dvd {a : Word} (h : PGSIZE ∣ a.toNat) :
  ROUNDUP a = a
  := by
  apply BitVec.eq_of_toNat_eq
  obtain ⟨k, hk⟩ := h
  have hlt := a.isLt
  rw [ROUNDUP_toNat, hk]
  simp only [PGSIZE] at hk ⊢
  omega

/-- Mapping a region in 32 bits is mapping it with unbounded numbers. -/
theorem bootMapRegion_eq {va size pa : Word} (pgdir : Nat) (perm : Word) (hva : PGSIZE ∣ va.toNat)
    (hpa : PGSIZE ∣ pa.toNat) (hsize : PGSIZE ∣ size.toNat) :
  bootMapRegion pgdir va size pa perm
    = Jos.bootMapRegion pgdir va.toNat size.toNat pa.toNat perm
  := by
  have hadd : ∀ (a : Word) (i : Nat), a + BitVec.ofNat 32 i = BitVec.ofNat 32 (a.toNat + i) := by
    intro a i
    rw [BitVec.ofNat_add, BitVec.ofNat_toNat, BitVec.setWidth_eq]
  rw [bootMapRegion, Jos.bootMapRegion, ROUNDUP_of_dvd hva, ROUNDUP_of_dvd hpa,
    ROUNDUP_of_dvd hsize, Jos.ROUNDUP_of_dvd hva, Jos.ROUNDUP_of_dvd hpa,
    Jos.ROUNDUP_of_dvd hsize]
  simp only [hadd]

/-! ### What a call changes -/

/-- The number of the directory entry whose page table maps the window for devices. -/
def MMIOX : Nat := 0x3BE

/-- From `s` to `s'` the free page `q` became the page table of the window. -/
structure Tabled (s s' : Kernel) (q : Nat) : Prop where
  free : s.IsFree q
  before : refOf (s.entry s.kernPgdir MMIOX) = none
  after : refOf (s'.entry s'.kernPgdir MMIOX) = some q

/-- From `s` to `s'` the kernel's page directory and the page structures changed at most by a
new page table for the window. -/
inductive Around (s s' : Kernel) : Prop where
  /-- There was a page table, or none was needed. -/
  | same (pgdir : s'.kernPgdir = s.kernPgdir)
      (pde : ∀ d < 1024, s'.entry s'.kernPgdir d = s.entry s.kernPgdir d)
      (pages : s'.pages = s.pages) (list : s'.pageFreeList = s.pageFreeList)
  /-- The page table is new. -/
  | tabled (q : Nat) (pgdir : s'.kernPgdir = s.kernPgdir) (new : Tabled s s' q)
      (pde : ∀ d < 1024, d ≠ MMIOX → s'.entry s'.kernPgdir d = s.entry s.kernPgdir d)
      (pages : ∀ p ≠ q, s'.pages p = s.pages p)

namespace Around

variable {s s' s'' : Kernel}

theorem refl (s : Kernel) :
  Around s s
  := Around.same rfl (fun _ _ => rfl) rfl rfl

theorem kernPgdir (h : Around s s') :
  s'.kernPgdir = s.kernPgdir
  := by
  cases h with
  | same pgdir _ _ _ => exact pgdir
  | tabled _ pgdir _ _ _ => exact pgdir

theorem trans (h : Around s s') (h' : Around s' s'') :
  Around s s''
  := by
  have hx : MMIOX < 1024 := by decide
  cases h with
  | same pgdir pde pages list =>
      cases h' with
      | same pgdir' pde' pages' list' =>
          apply Around.same
          · exact pgdir'.trans pgdir
          · intro d hd
            rw [pde' d hd, pde d hd]
          · exact pages'.trans pages
          · exact list'.trans list
      | tabled q pgdir' new' pde' pages' =>
          apply Around.tabled q (pgdir'.trans pgdir)
          · constructor
            case free =>
              have hfree := new'.free
              rw [Kernel.IsFree, pages, list] at hfree
              exact hfree
            case before =>
              rw [← pde MMIOX hx]
              exact new'.before
            case after => exact new'.after
          · intro d hd hne
            rw [pde' d hd hne, pde d hd]
          · intro p hp
            rw [pages' p hp, pages]
  | tabled q pgdir new pde pages =>
      cases h' with
      | same pgdir' pde' pages' list' =>
          apply Around.tabled q (pgdir'.trans pgdir)
          · constructor
            case free => exact new.free
            case before => exact new.before
            case after =>
              rw [pde' MMIOX hx]
              exact new.after
          · intro d hd hne
            rw [pde' d hd, pde d hd hne]
          · intro p hp
            rw [pages', pages p hp]
      | tabled q' _ new' _ _ =>
          -- a page table is made once only
          have hnone := new'.before
          rw [new.after] at hnone
          cases hnone

/-- A page directory entry stays but for that of a new page table. -/
theorem pde_cases (h : Around s s') {d : Nat} (hd : d < 1024) :
  s'.entry s'.kernPgdir d = s.entry s.kernPgdir d ∨ (d = MMIOX ∧ ∃ q, Tabled s s' q)
  := by
  cases h with
  | same _ pde _ _ => exact Or.inl (pde d hd)
  | tabled q _ new pde _ =>
      by_cases hx : d = MMIOX
      · right
        exact ⟨hx, q, new⟩
      · left
        exact pde d hd hx

/-- The references to a page stay counted as they were, but for a new page table. -/
theorem ppRef (h : Around s s') (p : Nat) (hp : ¬ Tabled s s' p) :
  (s'.pages p).ppRef = (s.pages p).ppRef
  := by
  cases h with
  | same _ _ pages _ => rw [pages]
  | tabled q _ new _ pages =>
      rw [pages]
      rintro rfl
      apply hp new

end Around

end Mmio

namespace Booting

open Mmio

variable {avail : Finset Nat} {n : Nat} {l : List Nat} {g : Nat → Nat → Word} {s s' : Kernel}

/-- Mapping a page in the window changes no directory entry but for that of the window. -/
theorem bootMapPage_around (h : Booting avail n l g s) {va : Word} (pa perm : Word)
    (hx : PDX va = MMIOX) :
  (Jos.bootMapPage s.kernPgdir va pa perm).EndsUnless (n ≤ 1024) s (fun _ s' => Around s s')
  := by
  have hlt : PDX va < 1024 := PDX_lt va
  have hge : NUPDE ≤ PDX va := by
    rw [hx]
    decide
  have hne : PDX va ≠ UVPTX := by
    rw [hx]
    decide
  rw [Jos.bootMapPage]
  cases hpt : refOf (s.entry s.kernPgdir (PDX va)) with
  | some pt =>
      obtain ⟨-, hpk, -⟩ := h.table hlt hne hpt
      rw [Prog.endsUnless_bind_of_eq (h.walk va true hne hpt)]
      apply Prog.endsUnless_modify.mpr
      apply Around.same
      · rfl
      · intro d hd
        apply Kernel.entry_setEntry_of_ne _ _ (PTX_lt va) hd (Or.inl (Ne.symm hpk))
      · rfl
      · rfl
  | none =>
      cases l with
      | nil =>
          have hlist : s.pageFreeList = none := h.mem.pageFreeList_eq_none.mpr rfl
          rw [Prog.endsUnless_bind_of_eq (pgdirWalk_create_of_none hlist hpt)]
          have hcount := h.count
          have hle := s.noEnvs.kernTables_le
          rw [List.length_nil] at hcount
          apply Prog.EndsUnless.fault
          omega
      | cons p l =>
          have hp := h.mem.refs_free List.mem_cons_self
          have hn : p < 2 ^ 20 := Nat.lt_of_lt_of_le (h.mem.avail_lt p hp.1) h.mem.npages_le
          have hpk : s.kernPgdir ≠ p := fun he => h.mem.kern_notMem (he ▸ hp.1)
          obtain ⟨hentry, -⟩ := h.withTable_slotRef hlt hge hne
          rw [Prog.endsUnless_bind_of_eq (h.walk_create hpt)]
          apply Prog.endsUnless_modify.mpr
          have hset : ∀ d < 1024, ((s.withTable s.kernPgdir (PDX va) p).setEntry p (PTX va)
              (pa ||| perm ||| PTE_P)).entry s.kernPgdir d
              = if d = PDX va then tableEntry p else s.entry s.kernPgdir d := by
            intro d hd
            rw [Kernel.entry_setEntry_of_ne _ _ (PTX_lt va) hd (Or.inl hpk)]
            exact hentry d hd
          apply Around.tabled p
          · rfl
          · constructor
            case free => exact ⟨p :: l, h.mem.chain, List.mem_cons_self⟩
            case before =>
              rw [← hx]
              exact hpt
            case after =>
              have hself := hset (PDX va) hlt
              rw [if_pos rfl] at hself
              rw [← hx]
              exact (congrArg refOf hself).trans (refOf_tableEntry hn)
          · intro d hd hdx
            have hother := hset d hd
            rw [if_neg (hx ▸ hdx)] at hother
            exact hother
          · intro q hq
            have htaken : (s.taken p).pages q = s.pages q := Function.update_of_ne hq _ _
            rw [← htaken]
            exact Function.update_of_ne hq _ _

/-- Mapping a region in the window changes no directory entry but for that of the window. -/
theorem bootMapRegion_around (h : Booting avail n l g s) {va size v c : Nat} (pa : Nat)
    (perm : Word) (hva : ROUNDUP va = v * PGSIZE) (hsize : ROUNDUP size / PGSIZE = c)
    (hv : 0xEF800 ≤ v) (hc : v + c ≤ 0xEFC00) :
  (Jos.bootMapRegion s.kernPgdir va size pa perm).EndsUnless (n ≤ 1024) s (fun _ s' => Around s s')
  := by
  have hloop : (Jos.bootMapRegion s.kernPgdir va size pa perm).EndsUnless (n ≤ 1024) s
      (fun _ s' => (∃ l g, Booting avail n l g s') ∧ Around s s') := by
    rw [Jos.bootMapRegion, hva, hsize]
    apply Prog.EndsUnless.forUp (fun _ s' => (∃ l g, Booting avail n l g s') ∧ Around s s')
    · intro i s' _ hi ⟨⟨l', g', h'⟩, ha⟩
      obtain ⟨hd, -⟩ := PDX_ofNat (show v + i < 2 ^ 20 by omega)
      have hx : PDX (BitVec.ofNat 32 (v * PGSIZE + i * PGSIZE)) = MMIOX := by
        rw [← Nat.add_mul, hd, MMIOX]
        omega
      have hge : NUPDE ≤ MMIOX := by decide
      have hne : MMIOX ≠ UVPTX := by decide
      rw [← ha.kernPgdir]
      have hmap := h'.bootMapPage _ (BitVec.ofNat 32 (ROUNDUP pa + i * PGSIZE)) perm
        (hx ▸ hge) (hx ▸ hne)
      apply (hmap.and (h'.bootMapPage_around _ perm hx)).mono
      intro _ s'' ⟨⟨⟨l'', h''⟩, _⟩, ha'⟩
      exact ⟨⟨l'', _, h''⟩, ha.trans ha'⟩
    · exact ⟨⟨l, g, h⟩, Around.refl s⟩
  exact hloop.mono (fun _ _ h' => h'.2)

/-- The entries that translate an address are those of the page tables of the kernel. -/
theorem entries_eq (h : Booting avail n l g s) {va : Word} (hne : PDX va ≠ UVPTX) :
  s.entries s.kernPgdir va
    = if present (g (PDX va) (PTX va)) then
        some (s.entry s.kernPgdir (PDX va), g (PDX va) (PTX va))
      else none
  := by
  have hpte := h.pte (PDX va) (PDX_lt va) hne (PTX va) (PTX_lt va)
  rw [Kernel.kernPte] at hpte
  rw [Kernel.entries]
  cases hpt : refOf (s.entry s.kernPgdir (PDX va)) with
  | none =>
      have hout : present (s.entry s.kernPgdir (PDX va)) = false := by
        simp [present, refOf_eq_none.mp hpt]
      rw [hpt] at hpte
      simp only at hpte
      rw [hout, ← hpte, present_zero]
      rfl
  | some pt =>
      obtain ⟨hp, hpage⟩ := refOf_eq_some.mp hpt
      have hin : present (s.entry s.kernPgdir (PDX va)) = true := decide_eq_true hp
      rw [hpt] at hpte
      simp only at hpte
      simp only [hin, if_true, hpage, hpte]

end Booting

namespace Mmio

/-! ### Device memory -/

/-- Whether accesses to `va` go past the caches. -/
def uncached (s : Kernel) (pgdir : Nat) (va : Word) : Bool :=
  match s.entries pgdir va with
  | some (_, pt) => pt &&& PTE_PCD = PTE_PCD
  | none => false

/-- The kernel's page directory translates `va` to the device address `pa`, uncached and not
for environments. -/
structure MapsDevice (s : Kernel) (va pa : Word) : Prop where
  translate : s.translate s.kernPgdir va = some pa.toNat
  uncached : uncached s s.kernPgdir va = true
  kernel : s.userReadable s.kernPgdir va = false

/-- The permissions of device memory. -/
def devicePerm : Word :=
  PTE_P ||| PTE_W ||| PTE_PCD ||| PTE_PWT

/-- An address is that of its page number and its offset. -/
theorem ofNat_eq_page2pa {pa : Word} (hpa : PGSIZE ∣ pa.toNat) (j : Nat) :
  BitVec.ofNat 32 (pa.toNat + j * PGSIZE) = page2pa ((pa.toNat / PGSIZE + j) % 2 ^ 20)
  := by
  apply BitVec.eq_of_toNat_eq
  obtain ⟨k, hk⟩ := hpa
  rw [page2pa_toNat (Nat.mod_lt _ (by decide)), BitVec.toNat_ofNat, hk]
  simp only [PGSIZE]
  omega

/-- The entry made for device memory translates to it. -/
theorem mapsDevice_of_entries {s : Kernel} {va pa pd k : Word} {j : Nat} (hpa : PGSIZE ∣ pa.toNat)
    (hj : j = k.toNat / PGSIZE) (hoff : PGOFF va = k.toNat % PGSIZE)
    (h : s.entries s.kernPgdir va
      = some (pd, BitVec.ofNat 32 (pa.toNat + j * PGSIZE) ||| devicePerm ||| PTE_P)) :
  MapsDevice s va (pa + k)
  := by
  obtain ⟨q, hq⟩ : ∃ q, q = (pa.toNat / PGSIZE + j) % 2 ^ 20 := ⟨_, rfl⟩
  have hlt : q < 2 ^ 20 := hq ▸ Nat.mod_lt _ (by decide)
  have hperm : devicePerm.toNat < 4096 := by decide
  have hflags : ∀ w : Word, 0xFFF &&& w = w →
      (page2pa q ||| devicePerm ||| PTE_P) &&& w = (devicePerm ||| PTE_P) &&& w := by
    intro w hw
    rw [← hw, ← BitVec.and_assoc, ← BitVec.and_assoc, flags_of_lt q hperm]
    congr 1
  rw [ofNat_eq_page2pa hpa, ← hq] at h
  constructor
  case translate =>
    rw [Kernel.translate, h]
    simp only
    rw [ptePage_mk hlt hperm, hoff, hq, hj]
    obtain ⟨i, hi⟩ := hpa
    rw [BitVec.toNat_add, hi]
    simp only [PGSIZE]
    congr 1
    omega
  case uncached =>
    rw [uncached, h]
    apply decide_eq_true
    rw [hflags PTE_PCD (by decide)]
    decide
  case kernel =>
    rw [Kernel.userReadable, Kernel.allows, h]
    apply decide_eq_false
    rintro ⟨-, hu⟩
    rw [hflags PTE_U (by decide)] at hu
    revert hu
    decide

theorem MapsDevice.congr {s s' : Kernel} {va pa : Word} (h : MapsDevice s va pa)
    (he : s'.entries s'.kernPgdir va = s.entries s.kernPgdir va) :
  MapsDevice s' va pa
  := by
  constructor
  case translate =>
    rw [Kernel.translate, he]
    exact h.translate
  case uncached =>
    rw [Mmio.uncached, he]
    exact h.uncached
  case kernel =>
    rw [Kernel.userReadable, Kernel.allows, he]
    exact h.kernel

end Mmio

namespace Booting

open Mmio

variable {avail : Finset Nat} {n : Nat} {l l' : List Nat} {g g' : Nat → Nat → Word}
  {s s' : Kernel}

/-- The page directory maps itself at `UVPT`. -/
theorem entries_UVPT (h : Booting avail n l g s) {va : Word} (hva : PDX va = UVPTX) :
  s.entries s.kernPgdir va
    = if present (s.entry s.kernPgdir (PTX va)) then
        some (s.entry s.kernPgdir UVPTX, s.entry s.kernPgdir (PTX va))
      else none
  := by
  have hk : s.kernPgdir < 2 ^ 20 := Nat.lt_of_lt_of_le h.kern_lt h.mem.npages_le
  have hpage : ptePage (s.entry s.kernPgdir UVPTX) = s.kernPgdir := by
    rw [h.uvpt]
    apply ptePage_mk hk
    decide
  have hin : present (s.entry s.kernPgdir UVPTX) = true := by
    rw [h.uvpt]
    apply present_mk
  rw [Kernel.entries, hva]
  simp only [hin, if_true, hpage]

/-- Where no entry of a page table changed the translation is the same, but that a new page
table shows at `UVPT`. -/
theorem entries_around (h : Booting avail n l g s) (h' : Booting avail n l' g' s')
    (ha : Around s s') {va : Word} (hg : g' (PDX va) (PTX va) = g (PDX va) (PTX va)) :
  s'.entries s'.kernPgdir va = s.entries s.kernPgdir va
    ∨ (PDX va = UVPTX ∧ PTX va = MMIOX ∧ ∃ q, Mmio.Tabled s s' q)
  := by
  by_cases hne : PDX va = UVPTX
  · have huvpt : s'.entry s'.kernPgdir UVPTX = s.entry s.kernPgdir UVPTX := by
      rw [h'.uvpt, h.uvpt, ha.kernPgdir]
    rw [h'.entries_UVPT hne, h.entries_UVPT hne, huvpt]
    obtain hpde | ⟨hx, hq⟩ := ha.pde_cases (PTX_lt va)
    · left
      rw [hpde]
    · right
      exact ⟨hne, hx, hq⟩
  · left
    rw [h'.entries_eq hne, h.entries_eq hne, hg]
    cases hp : present (g (PDX va) (PTX va)) with
    | false => rfl
    | true =>
        obtain hpde | ⟨hx, q, hq⟩ := ha.pde_cases (PDX_lt va)
        · rw [hpde]
        · -- without a page table there was no entry
          have hpte := h.pte (PDX va) (PDX_lt va) hne (PTX va) (PTX_lt va)
          rw [Kernel.kernPte, hx, hq.before, ← hx] at hpte
          simp only at hpte
          rw [← hpte, present_zero] at hp
          cases hp

/-- The test against the limit where nothing wraps. -/
theorem next_toNat {base size : Word} {v c : Nat} (hbase : base.toNat = v * PGSIZE)
    (hc : Jos.ROUNDUP size.toNat = c * PGSIZE)
    (hwrap : base.toNat + Jos.ROUNDUP size.toNat < 2 ^ 32) :
  (Mmio.ROUNDUP size).toNat = c * PGSIZE ∧ (base + Mmio.ROUNDUP size).toNat = (v + c) * PGSIZE
  := by
  have hround : (Mmio.ROUNDUP size).toNat = c * PGSIZE := by
    rw [ROUNDUP_toNat_of_lt (by omega), hc]
  use hround
  rw [BitVec.toNat_add, hround, hbase, ← Nat.add_mul]
  apply Nat.mod_eq_of_lt
  rw [hbase, hc, ← Nat.add_mul] at hwrap
  exact hwrap

/-- Device memory that fits is mapped, unless there is no page for the page table. -/
theorem mmioMapRegion_fits (h : Booting avail n l g s) {base pa size : Word} {v c : Nat}
    (hpa : PGSIZE ∣ pa.toNat) (hbase : base.toNat = v * PGSIZE) (hv : 0xEF800 ≤ v)
    (hc : Jos.ROUNDUP size.toNat = c * PGSIZE) (hle : v + c ≤ 0xEFC00) :
  (Mmio.mmioMapRegion base pa size).EndsUnless (n ≤ 1024) s (fun x s' =>
    x = (base, base + Mmio.ROUNDUP size)
      ∧ (∃ l', Booting avail n l' (mapRegion g v c pa.toNat devicePerm) s') ∧ Around s s')
  := by
  have hpos : 0 < PGSIZE := by decide
  have hwrap : base.toNat + Jos.ROUNDUP size.toNat < 2 ^ 32 := by
    rw [hbase, hc, ← Nat.add_mul]
    simp only [PGSIZE]
    omega
  obtain ⟨hround, hsum⟩ := next_toNat hbase hc hwrap
  have hbdvd : PGSIZE ∣ base.toNat := ⟨v, by rw [hbase, Nat.mul_comm]⟩
  have hsdvd : PGSIZE ∣ (Mmio.ROUNDUP size).toNat := ⟨c, by rw [hround, Nat.mul_comm]⟩
  have hva : Jos.ROUNDUP base.toNat = v * PGSIZE := by rw [Jos.ROUNDUP_of_dvd hbdvd, hbase]
  have hv' : Jos.ROUNDUP base.toNat / PGSIZE = v := by rw [hva, Nat.mul_div_cancel _ hpos]
  have hc' : Jos.ROUNDUP (Mmio.ROUNDUP size).toNat / PGSIZE = c := by
    rw [Jos.ROUNDUP_of_dvd hsdvd, hround, Nat.mul_div_cancel _ hpos]
  have hmap := h.bootMapRegion base.toNat (Mmio.ROUNDUP size).toNat pa.toNat devicePerm
    (by rw [hv', hc']; exact ownTables_upper hv (by omega))
  rw [hv', hc', Jos.ROUNDUP_of_dvd hpa] at hmap
  have haround := h.bootMapRegion_around pa.toNat devicePerm hva hc' hv hle
  have hlim : ¬ (v + c) * PGSIZE > MMIOLIM := by
    simp only [PGSIZE, MMIOLIM, KSTACKTOP, KERNBASE, PTSIZE]
    omega
  rw [Mmio.mmioMapRegion]
  simp only [hsum]
  rw [if_neg hlim, Prog.endsUnless_get_bind, bootMapRegion_eq _ _ hbdvd hpa hsdvd]
  apply (hmap.and haround).bind
  rintro _ s' ⟨⟨hl, _⟩, ha⟩
  apply Prog.endsUnless_pure.mpr
  exact ⟨rfl, hl, ha⟩

/-- A call that returned where nothing wraps. -/
theorem mmioMapRegion_wide (h : Booting avail n l g s) {base pa size r base' : Word} {v c : Nat}
    (hpa : PGSIZE ∣ pa.toNat) (hbase : base.toNat = v * PGSIZE) (hv : 0xEF800 ≤ v)
    (hc : Jos.ROUNDUP size.toNat = c * PGSIZE) (hwrap : base.toNat + Jos.ROUNDUP size.toNat < 2 ^ 32)
    (heq : Mmio.mmioMapRegion base pa size s = .ok ((r, base'), s')) :
  (r = base ∧ base'.toNat = (v + c) * PGSIZE ∧ v + c ≤ 0xEFC00)
    ∧ (∃ l', Booting avail n l' (mapRegion g v c pa.toNat devicePerm) s') ∧ Around s s'
  := by
  obtain ⟨-, hsum⟩ := next_toNat hbase hc hwrap
  have hle : v + c ≤ 0xEFC00 := by
    by_contra hgt
    have hlim : (v + c) * PGSIZE > MMIOLIM := by
      simp only [PGSIZE, MMIOLIM, KSTACKTOP, KERNBASE, PTSIZE]
      omega
    rw [Mmio.mmioMapRegion] at heq
    simp only [hsum, hlim, if_true] at heq
    cases heq
  obtain ⟨hr, hl, ha⟩ := (h.mmioMapRegion_fits hpa hbase hv hc hle).of_eq heq
  obtain ⟨rfl, rfl⟩ := Prod.mk.inj hr
  exact ⟨⟨rfl, hsum, hle⟩, hl, ha⟩

end Booting

namespace Mmio

/-! ### Sequences of calls -/

/-- The arguments of a call, with the device at a page boundary. -/
structure Call where
  pa : Word
  size : Word
  aligned : PGSIZE ∣ pa.toNat

/-- A call that returned: where the next region was to start, what was given back, and the
states before and after. -/
structure Made where
  base : Word
  call : Call
  ret : Word
  before : Kernel
  after : Kernel

/-- The calls that returned since `s₀`, the last one first, with the state and the base of the
next region after them. -/
inductive Calls (s₀ : Kernel) : List Made → Kernel → Word → Prop
  | start : Calls s₀ [] s₀ (BitVec.ofNat 32 MMIOBASE)
  | call {ms : List Made} {s s' : Kernel} {base base' r : Word} {c : Call} (h : Calls s₀ ms s base)
      (heq : mmioMapRegion base c.pa c.size s = .ok ((r, base'), s')) :
      Calls s₀ (⟨base, c, r, s, s'⟩ :: ms) s' base'

/-- The region of a call, which has whole pages. -/
def Made.Contains (m : Made) (va : Word) : Prop :=
  m.ret.toNat ≤ va.toNat ∧ va.toNat < m.ret.toNat + Jos.ROUNDUP m.call.size.toNat

/-- A call maps its region, which lies in the window for devices, and changes nothing else. -/
structure Effect (m : Made) : Prop where
  window : MMIOBASE ≤ m.ret.toNat ∧ m.ret.toNat + Jos.ROUNDUP m.call.size.toNat ≤ MMIOLIM
  maps : ∀ k : Word, k.toNat < m.call.size.toNat →
    MapsDevice m.after (m.ret + k) (m.call.pa + k)
  others : ∀ va, ¬ m.Contains va →
    m.after.entries m.after.kernPgdir va = m.before.entries m.before.kernPgdir va
      ∨ (PDX va = UVPTX ∧ PTX va = MMIOX ∧ ∃ q, Tabled m.before m.after q)
  refs : ∀ p, ¬ Tabled m.before m.after p → (m.after.pages p).ppRef = (m.before.pages p).ppRef

/-- What is asked of the calls `ms` that were made up to the state `s`, and of the next call if
it is one of `ok`: each has its effect, the regions are disjoint and stay mapped, and what does
not fit is refused. -/
structure Exact (ok : Word → Call → Prop) (ms : List Made) (s : Kernel) (base : Word) : Prop where
  effect : ∀ m ∈ ms, Effect m
  disjoint : ms.Pairwise (fun m m' => ∀ va, ¬ (m.Contains va ∧ m'.Contains va))
  kept : ∀ m ∈ ms, ∀ k : Word, k.toNat < m.call.size.toNat →
    MapsDevice s (m.ret + k) (m.call.pa + k)
  refuses : ∀ c, ok base c → MMIOLIM < base.toNat + c.size.toNat →
    mmioMapRegion base c.pa c.size s = .error (.panic "Size greater than io memory exists\n")

/-- Neither rounding the size up nor adding it to the base wraps. -/
def Unwrapped (base : Word) (c : Call) : Prop :=
  base.toNat + Jos.ROUNDUP c.size.toNat < 2 ^ 32

/-- An address in a region has a page number of the region. -/
theorem region_index {r k : Word} {v : Nat} (hr : r.toNat = v * PGSIZE)
    (hk : r.toNat + k.toNat < 2 ^ 32) :
  PDX (r + k) * 1024 + PTX (r + k) = v + k.toNat / PGSIZE ∧ PGOFF (r + k) = k.toNat % PGSIZE
  := by
  have hadd : (r + k).toNat = v * PGSIZE + k.toNat := by
    rw [BitVec.toNat_add, Nat.mod_eq_of_lt hk, hr]
  rw [PDX_eq, PTX_eq, PGOFF_eq, hadd]
  simp only [PGSIZE]
  omega

/-- A call where nothing wraps has its effect. -/
theorem effect_of_unwrapped {avail : Finset Nat} {n : Nat} {l : List Nat} {g : Nat → Nat → Word}
    {s s' : Kernel} (h : Booting avail n l g s) {base r base' : Word} {c : Call} {v : Nat}
    (hbase : base.toNat = v * PGSIZE) (hv : 0xEF800 ≤ v) (hwrap : Unwrapped base c)
    (heq : mmioMapRegion base c.pa c.size s = .ok ((r, base'), s')) :
  Effect ⟨base, c, r, s, s'⟩ ∧ (∃ l' g', Booting avail n l' g' s')
    ∧ r = base ∧ base'.toNat = base.toNat + Jos.ROUNDUP c.size.toNat
    ∧ ∃ v', base'.toNat = v' * PGSIZE ∧ v ≤ v' ∧ v' ≤ 0xEFC00
  := by
  obtain ⟨i, hi⟩ := ROUNDUP_dvd c.size.toNat
  rw [Nat.mul_comm] at hi
  obtain ⟨⟨rfl, hnext, hle⟩, ⟨l', h'⟩, ha⟩ :=
    h.mmioMapRegion_wide c.aligned hbase hv hi hwrap heq
  have hround := le_ROUNDUP c.size.toNat
  have hpd : ∀ va : Word, va.toNat / PGSIZE = PDX va * 1024 + PTX va := by
    intro va
    rw [PDX_eq, PTX_eq]
    simp only [PGSIZE]
    omega
  refine ⟨?_, ⟨l', _, h'⟩, rfl, ?_, v + i, hnext, by omega, hle⟩
  · constructor
    case window =>
      simp only [hi, hbase, MMIOBASE, MMIOLIM, KSTACKTOP, KERNBASE, PTSIZE, PGSIZE]
      omega
    case maps =>
      intro k hk
      simp only at hk ⊢
      rw [hi] at hround
      have hlim : r.toNat + k.toNat < 0xEFC00 * PGSIZE := by
        rw [hbase]
        simp only [PGSIZE] at hround ⊢
        omega
      obtain ⟨hidx, hoff⟩ := region_index hbase
        (Nat.lt_trans hlim (by decide : 0xEFC00 * PGSIZE < 2 ^ 32))
      have hki : k.toNat / PGSIZE < i := by
        simp only [PGSIZE] at hround ⊢
        omega
      obtain ⟨j, hj⟩ : ∃ j, j = k.toNat / PGSIZE := ⟨_, rfl⟩
      rw [← hj] at hidx hki
      have hne : PDX (r + k) ≠ UVPTX := by
        have hlt := PTX_lt (r + k)
        simp only [UVPTX]
        omega
      have hg : mapRegion g v i c.pa.toNat devicePerm (PDX (r + k)) (PTX (r + k))
          = BitVec.ofNat 32 (c.pa.toNat + j * PGSIZE) ||| devicePerm ||| PTE_P := by
        rw [mapRegion, hidx, if_pos (by omega), Nat.add_sub_cancel_left]
      have hentries := h'.entries_eq hne
      rw [hg, present_mk, if_pos rfl] at hentries
      exact mapsDevice_of_entries c.aligned hj hoff hentries
    case others =>
      intro va hva
      apply h.entries_around h' ha
      rw [mapRegion, if_neg]
      rintro ⟨h1, h2⟩
      apply hva
      rw [← hpd] at h1 h2
      rw [Made.Contains]
      simp only [hi, hbase, PGSIZE] at h1 h2 ⊢
      omega
    case refs => exact ha.ppRef
  · rw [hnext, hbase, hi, Nat.add_mul]

/-- What holds along a sequence of calls where nothing wraps: the kernel is as at boot, the next
region starts behind all others, and these are mapped. -/
structure Along (avail : Finset Nat) (n : Nat) (ms : List Made) (s : Kernel) (base : Word) :
    Prop where
  booting : ∃ l g, Booting avail n l g s
  next : ∃ v, base.toNat = v * PGSIZE ∧ 0xEF800 ≤ v ∧ v ≤ 0xEFC00
  effect : ∀ m ∈ ms, Effect m
  below : ∀ m ∈ ms, m.ret.toNat + Jos.ROUNDUP m.call.size.toNat ≤ base.toNat
  disjoint : ms.Pairwise (fun m m' => ∀ va, ¬ (m.Contains va ∧ m'.Contains va))
  kept : ∀ m ∈ ms, ∀ k : Word, k.toNat < m.call.size.toNat →
    MapsDevice s (m.ret + k) (m.call.pa + k)

/-- The addresses of an earlier region, and where they lie. -/
theorem Effect.ret_add {m : Made} (h : Effect m) {k : Word} (hk : k.toNat < m.call.size.toNat) :
  (m.ret + k).toNat = m.ret.toNat + k.toNat ∧ m.Contains (m.ret + k)
  := by
  have hround := le_ROUNDUP m.call.size.toNat
  have hlim := h.window.2
  have hmax : MMIOLIM < 2 ^ 32 := by decide
  have hadd : (m.ret + k).toNat = m.ret.toNat + k.toNat := by
    rw [BitVec.toNat_add, Nat.mod_eq_of_lt (by omega)]
  use hadd
  rw [Made.Contains, hadd]
  omega

/-- One more call keeps it. -/
theorem Along.call {avail : Finset Nat} {n : Nat} {ms : List Made} {s s' : Kernel}
    {base base' r : Word} {c : Call} (h : Along avail n ms s base) (hwrap : Unwrapped base c)
    (heq : mmioMapRegion base c.pa c.size s = .ok ((r, base'), s')) :
  Along avail n (⟨base, c, r, s, s'⟩ :: ms) s' base'
  := by
  obtain ⟨l, g, hboot⟩ := h.booting
  obtain ⟨v, hv, hge, hle⟩ := h.next
  obtain ⟨heffect, hboot', rfl, hnext, v', hv', hvv, hle'⟩ :=
    effect_of_unwrapped hboot hv hge hwrap heq
  constructor
  case booting => exact hboot'
  case next => exact ⟨v', hv', Nat.le_trans hge hvv, hle'⟩
  case effect =>
    intro m hm
    obtain rfl | hm := List.mem_cons.mp hm
    · exact heffect
    · exact h.effect m hm
  case below =>
    intro m hm
    obtain rfl | hm := List.mem_cons.mp hm
    · exact Nat.le_of_eq hnext.symm
    · have hbelow := h.below m hm
      omega
  case disjoint =>
    apply List.Pairwise.cons _ h.disjoint
    intro m hm va ⟨hva, hva'⟩
    have hbelow := h.below m hm
    have hstart : r.toNat ≤ va.toNat := hva.1
    have hend := hva'.2
    omega
  case kept =>
    intro m hm k hk
    obtain rfl | hm := List.mem_cons.mp hm
    · exact heffect.maps k hk
    · apply (h.kept m hm k hk).congr
      obtain ⟨hadd, hin⟩ := (h.effect m hm).ret_add hk
      have hbelow := h.below m hm
      have hwin := (h.effect m hm).window.1
      obtain heq' | ⟨hx, -⟩ := heffect.others (m.ret + k) (by
        intro hnew
        have hstart : r.toNat ≤ (m.ret + k).toNat := hnew.1
        have hend := hin.2
        omega)
      · exact heq'
      · -- the window lies behind the page tables at `UVPT`
        rw [PDX_eq] at hx
        simp only [UVPTX, MMIOBASE, MMIOLIM, KSTACKTOP, KERNBASE, PTSIZE] at hx hwin
        omega

/-- A sequence of calls where nothing wraps. -/
theorem Calls.along {avail : Finset Nat} {n : Nat} {l : List Nat} {g : Nat → Nat → Word}
    {s₀ s : Kernel} {ms : List Made} {base : Word} (h : Booting avail n l g s₀)
    (hrun : Calls s₀ ms s base) (hcond : ∀ m ∈ ms, Unwrapped m.base m.call) :
  Along avail n ms s base
  := by
  induction hrun with
  | start =>
      constructor
      case booting => exact ⟨l, g, h⟩
      case next => exact ⟨0xEF800, by decide, by decide, by decide⟩
      case effect =>
        intro m hm
        cases hm
      case below =>
        intro m hm
        cases hm
      case disjoint => exact List.Pairwise.nil
      case kept =>
        intro m hm
        cases hm
  | call hrun heq ih =>
      apply (ih (fun m hm => hcond m (List.mem_cons_of_mem _ hm))).call _ heq
      exact hcond _ List.mem_cons_self

/-- What does not fit is refused where nothing wraps. -/
theorem refuses_of_unwrapped {base : Word} {c : Call} (s : Kernel) (hwrap : Unwrapped base c)
    (hlim : MMIOLIM < base.toNat + c.size.toNat) :
  mmioMapRegion base c.pa c.size s = .error (.panic "Size greater than io memory exists\n")
  := by
  rw [Unwrapped] at hwrap
  have hround := le_ROUNDUP c.size.toNat
  have hsum : (base + ROUNDUP c.size).toNat = base.toNat + Jos.ROUNDUP c.size.toNat := by
    rw [BitVec.toNat_add, ROUNDUP_toNat_of_lt (by omega), Nat.mod_eq_of_lt hwrap]
  rw [mmioMapRegion]
  simp only [hsum]
  rw [if_pos (by omega)]
  rfl

/-- In every sequence of calls from the first on in which no size wraps, each call maps its
region and changes nothing else, the regions are disjoint, and the next call is refused if it
does not fit. -/
theorem mmioCalls_exact {avail : Finset Nat} {n : Nat} {l : List Nat} {g : Nat → Nat → Word}
    {s₀ s : Kernel} {ms : List Made} {base : Word} (h : Booting avail n l g s₀)
    (hrun : Calls s₀ ms s base) (hcond : ∀ m ∈ ms, Unwrapped m.base m.call) :
  Exact Unwrapped ms s base
  := by
  have halong := hrun.along h hcond
  constructor
  case effect => exact halong.effect
  case disjoint => exact halong.disjoint
  case kept => exact halong.kept
  case refuses =>
    intro c hc hlim
    exact refuses_of_unwrapped s hc hlim

/-- On a machine with 16 megabytes a first call for two pages is made and has its effect. -/
theorem mmioCalls_exact_two :
  ∃ s₀ s base, ∃ m : Made, m.call.size = 4097 ∧ Calls s₀ [m] s base ∧ Exact Unwrapped [m] s base
  := by
  have hc : FreeListChecked smallMachine smallMachine.layout := by
    constructor
    case basemem => decide
    case extmem => decide
  obtain ⟨-, s₀, l, -, -, -, hboot, hmany⟩ :=
    arrays_booting smallMachine hc (by decide) (by decide)
  obtain ⟨c, hcall⟩ : ∃ c : Call, c = ⟨0xFE000000, 4097, by decide⟩ := ⟨_, rfl⟩
  have hsize : c.size = 4097 := by rw [hcall]
  have hbase : (BitVec.ofNat 32 MMIOBASE).toNat = 0xEF800 * PGSIZE := by decide
  have htwo : Jos.ROUNDUP c.size.toNat = 2 * PGSIZE := by
    rw [hsize]
    decide
  obtain ⟨⟨r, base'⟩, s, heq, -⟩ :=
    (hboot.mmioMapRegion_fits c.aligned hbase (by decide) htwo (by decide)).returns hmany
  have hrun : Calls s₀ [⟨_, c, r, s₀, s⟩] s base' := Calls.start.call heq
  refine ⟨s₀, s, base', ⟨_, c, r, s₀, s⟩, hsize, hrun, ?_⟩
  apply mmioCalls_exact hboot hrun
  intro m hm
  obtain rfl := List.mem_singleton.mp hm
  rw [Unwrapped]
  simp only [hsize]
  decide

/-- A first call for 4 gigabytes less a byte returns without mapping anything. -/
theorem mmioCalls_wraps :
  ∃ avail n l g s₀ s base, ∃ m : Made, m.call.size = 0xFFFFFFFF ∧ Booting avail n l g s₀
    ∧ Calls s₀ [m] s base ∧ ¬ Exact (fun _ _ => True) [m] s base
  := by
  have hc : FreeListChecked smallMachine smallMachine.layout := by
    constructor
    case basemem => decide
    case extmem => decide
  obtain ⟨-, s₀, l, -, -, -, hboot, -⟩ :=
    arrays_booting smallMachine hc (by decide) (by decide)
  obtain ⟨c, hcall⟩ : ∃ c : Call, c = ⟨0xFE000000, 0xFFFFFFFF, by decide⟩ := ⟨_, rfl⟩
  have hsize : c.size = 0xFFFFFFFF := by rw [hcall]
  have hround : ROUNDUP c.size = 0 := by
    rw [hsize]
    decide
  obtain ⟨base, hbase⟩ : ∃ base : Word, base = BitVec.ofNat 32 MMIOBASE := ⟨_, rfl⟩
  have heq : mmioMapRegion base c.pa c.size s₀ = .ok ((base, base), s₀) := by
    rw [mmioMapRegion, hround, hbase]
    rfl
  refine ⟨_, _, l, _, s₀, s₀, base, ⟨base, c, base, s₀, s₀⟩, hsize, hboot, ?_, ?_⟩
  · rw [hbase] at heq ⊢
    exact Calls.start.call heq
  · intro h
    have hmaps := h.kept _ List.mem_cons_self 0 (by rw [hsize]; decide)
    have htr := hmaps.translate
    have hne : PDX (base + 0) ≠ UVPTX := by
      rw [hbase]
      decide
    rw [Kernel.translate, hboot.entries_eq hne, present_zero] at htr
    cases htr

end Mmio

end Jos
