import Jos.Kern.AnyStabs
import Jos.Root.MemCheck

/-!
# Debugging information from a user program

`debuginfo_eip` in both kernels, with their own `user_mem_check` and with reads of user memory.  It is
to return a negative value, or else to have read nothing but the description of the tables and the
tables themselves, which the program may read, and to name strings that end in its table of strings.

The checks do not see to that.  The length of the table of stabs is given to them as a number of stabs
and not of bytes, and in the kernel of `Working/lab` they are content with one of the flags they ask
for.  Nor do they see to it that the table ends behind its start, by a multiple of the size of a stab,
or that its stabs are in order.
-/

namespace Jos

open Bytes Prog Stab

variable {s s' : Kernel} {cur pg : Nat} {eip : Word} {d : StabData}

/-! ### The source -/

/-- What `debuginfo_eip` uses of a kernel with the given `user_mem_check`. The symbols of the linker
are `symbols`. -/
def debugOps (check : Nat → Word → Word → Word → Prog Kernel Word) (symbols : StabData) :
    DebugOps Kernel where
  load := kernLoad
  user_mem_check va len := do
    let pgdir ← curPgdir
    check pgdir va len (PTE_U ||| PTE_P)
  STAB_BEGIN := symbols.stabs
  STAB_END := symbols.stab_end
  STABSTR_BEGIN := symbols.stabstr
  STABSTR_END := symbols.stabstr_end

/-! ### What the call is for -/

/-- What the user program says at `USTABDATA`. -/
def Kernel.userStabs (s : Kernel) : StabData :=
  ⟨s.wordAt USTABDATA, s.wordAt (USTABDATA + 4), s.wordAt (USTABDATA + 8),
    s.wordAt (USTABDATA + 12)⟩

/-- `va` is in `[usd, usd + 1)`, `[stabs, stab_end)` or `[stabstr, stabstr_end)`. -/
def InTables (d : StabData) (va : Word) : Prop :=
  (USTABDATA.toNat ≤ va.toNat ∧ va.toNat < USTABDATA.toNat + sizeofUserStabData.toNat)
    ∨ (d.stabs.toNat ≤ va.toNat ∧ va.toNat < d.stab_end.toNat)
    ∨ (d.stabstr.toNat ≤ va.toNat ∧ va.toNat < d.stabstr_end.toNat)

/-- A name is unknown, or a string that begins and ends in the table of strings. -/
def EndsInStrings (mem : Word → Byte) (d : StabData) : DebugName → Prop
  | .unknown => True
  | .at va => d.stabstr ≤ va ∧ ∃ last, va ≤ last ∧ last < d.stabstr_end ∧ mem last = 0

/-- From `s` to `s'` only the three ranges were read, all of which the program may read, and the names
are in the table of strings. -/
structure StaysInTables (s : Kernel) (pg : Nat) (d : StabData) (info : Eipdebuginfo) (s' : Kernel) :
    Prop where
  readable : ∀ va, InTables d va → s.MayAccess pg PTE_U va.toNat
  derefs : ∀ va ∈ s'.derefs, va ∈ s.derefs ∨ InTables d va
  file : EndsInStrings s.byteAt d info.eip_file
  fn_name : EndsInStrings s.byteAt d info.eip_fn_name

/-- The call returns a negative value, or it stays in the tables. -/
def Guards (call : Prog Kernel (Word × Eipdebuginfo)) (s : Kernel) (pg : Nat) : Prop :=
  ∃ r s', call s = .ok (r, s') ∧ (isError r.1 ∨ StaysInTables s pg s.userStabs r.2 s')

/-! ### When it does so -/

/-- The ranges that the check of `Working/lab` accepts. -/
def Kernel.LabPasses (s : Kernel) (pg : Nat) (va len : Word) : Prop :=
  ∀ i < len.toNat, s.Passes pg (PTE_U ||| PTE_P) (va + BitVec.ofNat 32 i)

/-- The ranges that the check of the kernel at the root accepts. -/
def Kernel.RootPasses (s : Kernel) (pg : Nat) (va len : Word) : Prop :=
  ∀ i < Root.pagesChecked va len,
    s.MayAccess pg (PTE_U ||| PTE_P) (Root.ROUNDDOWN va.toNat PGSIZE + i * PGSIZE)

/-- The checks vouch for what is read behind them. -/
structure Reliable (pass : Word → Word → Prop) (s : Kernel) (pg : Nat) (eip : Word) : Prop where
  usd : pass USTABDATA sizeofUserStabData →
    ∀ i < sizeofUserStabData.toNat, s.MayAccess pg PTE_U (USTABDATA.toNat + i)
  strings : Asked pass s.userStabs →
    ∀ a, s.userStabs.stabstr.toNat ≤ a → a < s.userStabs.stabstr_end.toNat → s.MayAccess pg PTE_U a
  stabs : Asked pass s.userStabs → s.byteAt (s.userStabs.stabstr_end - 1) = 0 →
    0 ≤ (s.userStabs.count - 1).toInt →
      (∀ a, s.userStabs.stabs.toNat ≤ a → a < s.userStabs.stab_end.toNat → s.MayAccess pg PTE_U a)
      ∧ s.userStabs.stabs.toNat + 12 * s.userStabs.count.toNat ≤ s.userStabs.stab_end.toNat
      ∧ ¬ Sinks (tableAt s.byteAt s.userStabs.stabs) N_SO 0 eip (s.userStabs.count - 1).toInt

/-! ### Reading and checking -/

/-- Since `s` the kernel has read the tables, and may have checked user memory. -/
def Inspected (d : StabData) (s s' : Kernel) : Prop :=
  ∃ addr, ReadsAt (InTables d) { s with userMemCheckAddr := addr } s'

/-- What may be accessed is mapped. -/
theorem translate_of_mayAccess {perm va : Word} (h : s.MayAccess pg perm va.toNat) :
  s.translate pg va ≠ none
  := by
  rcases h with ⟨-, pt, hpt, hpte⟩
  rw [BitVec.ofNat_toNat, BitVec.setWidth_eq] at hpt hpte
  rcases refOf_eq_some.mp hpt with ⟨hdir, rfl⟩
  rw [BitVec.or_comm] at hpte
  have hpage : s.entry (ptePage (s.entry pg (PDX va))) (PTX va) &&& PTE_P ≠ 0 := by
    rw [and_of_and_or hpte]
    decide
  have hentries : s.entries pg va
      = some (s.entry pg (PDX va), s.entry (ptePage (s.entry pg (PDX va))) (PTX va)) := by
    unfold Kernel.entries
    simpa [present] using ⟨hdir, hpage⟩
  unfold Kernel.translate
  rw [hentries]
  apply Option.some_ne_none

section Space

variable (hcur : s.curenv = some cur) (hpg : (s.envs cur).envPgdir = some pg)
include hcur hpg

theorem holds_of_mayAccess {va : Word} (hmay : s.MayAccess pg PTE_U va.toNat) (hva : InTables d va) :
  Holds kernLoad (Inspected d s) s.byteAt va
  := by
  rintro s' ⟨addr, h⟩
  have hreads := h.reads
  have hcur' : s'.curenv = some cur := by
    rw [hreads]
    apply hcur
  have hpg' : (s'.envs cur).envPgdir = some pg := by
    rw [hreads]
    apply hpg
  have htranslate : s'.translate pg va ≠ none := by
    rw [hreads.translate]
    apply translate_of_mayAccess hmay
  refine ⟨_, _, kernLoad_eq hcur' hpg' htranslate, ⟨addr, h.trans (ReadsAt.accessed hva)⟩, ?_⟩
  apply hreads.byteAt

/-- A check that judges entry by entry says whether all entries are accepted. -/
theorem check_gives {n : Nat} {body : Nat → Nat → Prog Kernel (Option Word)} {W A : Nat → Prop}
    {addr : Nat → Word}
    (hjudges : ∀ s', Inspected d s s' → Judges s' n (body pg) W A addr) (hwalk : ∀ i < n, W i) :
  (do
    let pgdir ← curPgdir
    let r ← findUp 0 n (body pgdir)
    pure (r.getD 0) : Prog Kernel Word).Gives (Inspected d s)
    (fun r => (r = 0 ∧ ∀ i < n, A i) ∨ (r = -E_FAULT ∧ ¬ ∀ i < n, A i))
  := by
  rintro s' ⟨addr', h⟩
  have hreads := h.reads
  have hcur' : s'.curenv = some cur := by
    rw [hreads]
    apply hcur
  have hpg' : (s'.envs cur).envPgdir = some pg := by
    rw [hreads]
    apply hpg
  have hverdict := (hjudges s' ⟨addr', h⟩).verdict
  generalize hr : findUp 0 n (body pg) s' = r at hverdict
  rw [bind_of_eq (curPgdir_eq hcur' hpg')]
  cases hverdict with
  | accepted hall =>
      rw [bind_of_eq hr]
      refine ⟨0, s', rfl, ⟨addr', h⟩, Or.inl ⟨rfl, fun i hi => (hall i hi).2⟩⟩
  | refused i hi hbefore hW hA =>
      rw [bind_of_eq hr]
      refine ⟨-E_FAULT, _, rfl, ⟨addr i, ?_⟩, Or.inr ⟨rfl, fun hall => hA (hall i hi)⟩⟩
      constructor
      case reads =>
        rw [Reads]
        conv_lhs => rw [hreads]
      case derefs => apply h.derefs
      case keeps => apply h.keeps
  | stuck i e hi hbefore hW => apply (hW (hwalk i hi)).elim

end Space

theorem Inspected.entry (h : Inspected d s s') (p i : Nat) :
  s'.entry p i = s.entry p i
  := by
  rcases h with ⟨addr, h⟩
  rw [h.reads]
  rfl

theorem Inspected.npages (h : Inspected d s s') :
  s'.npages = s.npages
  := by
  rcases h with ⟨addr, h⟩
  rw [h.reads]

theorem Inspected.start (d : StabData) (s : Kernel) :
  Inspected d s s
  := ⟨s.userMemCheckAddr, ReadsAt.refl s⟩

/-- Reading and checking does not change what the checks of `Working/lab` look at. -/
theorem checkByte_inspected (d : StabData) (s : Kernel) (pg : Nat) (va perm : Word) (n : Nat)
    (s' : Kernel) (h : Inspected d s s') :
  Judges s' n (checkByte pg va perm) (fun i => s.Walkable pg (va + BitVec.ofNat 32 i))
    (fun i => s.Passes pg perm (va + BitVec.ofNat 32 i)) (fun i => va + BitVec.ofNat 32 i)
  := by
  have hjudges := checkByte_judges s' pg va perm n
  simp only [Kernel.Walkable, Kernel.Passes, h.entry, h.npages] at hjudges
  apply hjudges

theorem checkPage_inspected (d : StabData) (s : Kernel) (pg : Nat) (va perm : Word) (first n : Nat)
    (s' : Kernel) (h : Inspected d s s') :
  Judges s' n (fun i => Root.checkPage pg va (perm ||| PTE_P) (first + i * PGSIZE))
    (fun i => s.Walkable pg (BitVec.ofNat 32 (first + i * PGSIZE)))
    (fun i => s.MayAccess pg perm (first + i * PGSIZE))
    (fun i => if first + i * PGSIZE < va.toNat then va else BitVec.ofNat 32 (first + i * PGSIZE))
  := by
  have hjudges := Root.checkPage_judges s' pg va perm first n
  simp only [Kernel.Walkable, Kernel.MayAccess, h.entry, h.npages] at hjudges
  apply hjudges

/-! ### Staying in the tables -/

/-- A word of a range that does not go round. -/
theorem toNat_add_ofNat {va : Word} {i : Nat} (h : va.toNat + i < 2 ^ 32) :
  (va + BitVec.ofNat 32 i).toNat = va.toNat + i
  := by
  rw [BitVec.toNat_add, BitVec.toNat_ofNat]
  omega

/-- The bytes of a stab of the table. -/
theorem stabAddr_toNat {stabs : Word} {i : Int} {o : Nat} (hi : 0 ≤ i)
    (h : stabs.toNat + 12 * i.toNat + o < 2 ^ 32) :
  (stabAddr stabs i + BitVec.ofNat 32 o).toNat = stabs.toNat + 12 * i.toNat + o
  := by
  obtain ⟨k, rfl⟩ := Int.eq_ofNat_of_zero_le hi
  rw [Int.toNat_natCast] at h ⊢
  have hmul : BitVec.ofInt 32 (12 * (k : Int)) = BitVec.ofNat 32 (12 * k) := by
    rw [← BitVec.ofInt_natCast, Int.natCast_mul]
    rfl
  have hstart : (stabAddr stabs k).toNat = stabs.toNat + 12 * k := by
    rw [stabAddr, hmul]
    apply toNat_add_ofNat
    omega
  rw [toNat_add_ofNat]
  · rw [hstart]
  · rw [hstart]
    omega

/-- A table of fewer stabs than there are bytes leaves the address room to grow. -/
theorem room_of_table (hlow : eip.toNat < ULIM) (hpos : 0 ≤ (d.count - 1).toInt)
    (hend : d.stabs.toNat + 12 * d.count.toNat ≤ d.stab_end.toNat) :
  (d.count - 1).toInt = d.count.toNat - 1 ∧ HasRoom 0 (d.count - 1).toInt eip
  := by
  have hlt := d.stab_end.isLt
  have hone : (1 : Word).toNat = 1 := rfl
  have hcount := d.count.isLt
  have hsub := BitVec.toNat_sub d.count 1
  rw [hone] at hsub
  have hint := BitVec.toInt_eq_toNat_cond (d.count - 1)
  have heq : (d.count - 1).toInt = d.count.toNat - 1 := by
    split at hint
    · omega
    · omega
  use heq
  rw [HasRoom, heq]
  simp only [ULIM, MMIOBASE, MMIOLIM, KSTACKTOP, KERNBASE, PTSIZE] at hlow
  omega

/-- A name that begins in a table of strings whose last byte is zero ends in it. -/
theorem InStrings.ends {mem : Word → Byte} {name : DebugName} (h : InStrings d name)
    (hlt : d.stabstr < d.stabstr_end) (hzero : mem (d.stabstr_end - 1) = 0) :
  EndsInStrings mem d name
  := by
  cases name with
  | unknown => trivial
  | «at» va =>
      have hin : va - d.stabstr < d.stabstr_end - d.stabstr := h
      have hone : (1 : Word).toNat = 1 := rfl
      have hva := va.isLt
      have hstart := d.stabstr.isLt
      have hend := d.stabstr_end.isLt
      rw [BitVec.lt_def] at hlt
      rw [BitVec.lt_def, BitVec.toNat_sub, BitVec.toNat_sub] at hin
      constructor
      · rw [BitVec.le_def]
        omega
      · refine ⟨d.stabstr_end - 1, ?_, ?_, hzero⟩
        · rw [BitVec.le_def, BitVec.toNat_sub, hone]
          omega
        · rw [BitVec.lt_def, BitVec.toNat_sub, hone]
          omega

/-- If the checks of a kernel vouch for what is read behind them, the call stays in the tables. -/
theorem guards_of_reliable {check : Nat → Word → Word → Word → Prog Kernel Word}
    {symbols : StabData} {failed : Word → Bool} {end_of : Int × Int → Int} {pass : Word → Word → Prop}
    (hcur : s.curenv = some cur) (hpg : (s.envs cur).envPgdir = some pg) (hlow : eip.toNat < ULIM)
    (hend : ∀ q, end_of q = q.1 ∨ end_of q = q.2)
    (hcheck : ∀ va len, ((debugOps check symbols).user_mem_check va len).Gives
      (Inspected s.userStabs s) (fun r => failed r = false ↔ pass va len))
    (h : Reliable pass s pg eip) :
  Guards (debuginfoEip (debugOps check symbols) failed end_of eip) s pg
  := by
  have hd : s.userStabs = dataAt (debugOps check symbols) s.byteAt eip := by
    rw [dataAt, if_neg (Nat.not_le_of_lt hlow)]
    rfl
  have hholds : ∀ va, s.MayAccess pg PTE_U va.toNat → InTables s.userStabs va →
      Holds kernLoad (Inspected s.userStabs s) s.byteAt va :=
    fun va => holds_of_mayAccess hcur hpg
  have husd : pass USTABDATA sizeofUserStabData → ∀ i < 16,
      Holds kernLoad (Inspected s.userStabs s) s.byteAt (USTABDATA + BitVec.ofNat 32 i) := by
    intro hpass i hi
    have hbase : USTABDATA.toNat = 0x200000 := rfl
    have hsize : sizeofUserStabData.toNat = 16 := rfl
    have haddr : (USTABDATA + BitVec.ofNat 32 i).toNat = USTABDATA.toNat + i :=
      toNat_add_ofNat (by omega)
    apply hholds
    · rw [haddr]
      apply h.usd hpass i (by omega)
    · left
      omega
  have hstrings : Asked pass s.userStabs →
      ∀ j < (s.userStabs.stabstr_end - s.userStabs.stabstr).toNat,
        Holds kernLoad (Inspected s.userStabs s) s.byteAt
          (s.userStabs.stabstr + BitVec.ofNat 32 j) := by
    intro hasked j hj
    have hlt := hasked.lt
    have hstart := s.userStabs.stabstr.isLt
    have hstop := s.userStabs.stabstr_end.isLt
    rw [BitVec.lt_def] at hlt
    rw [BitVec.toNat_sub] at hj
    have haddr := @toNat_add_ofNat s.userStabs.stabstr j (by omega)
    apply hholds
    · rw [haddr]
      apply h.strings hasked _ (by omega) (by omega)
    · right
      right
      omega
  have hsound : Asked pass s.userStabs → s.byteAt (s.userStabs.stabstr_end - 1) = 0 →
      0 ≤ (s.userStabs.count - 1).toInt →
        Sound kernLoad (Inspected s.userStabs s) s.byteAt s.userStabs eip := by
    intro hasked hzero hpos
    rcases h.stabs hasked hzero hpos with ⟨hmay, hfits, hhead⟩
    rcases room_of_table hlow hpos hfits with ⟨hcount, hroom⟩
    have hstop := s.userStabs.stab_end.isLt
    constructor
    case bytes =>
      intro i hi hi' o ho
      have haddr := @stabAddr_toNat s.userStabs.stabs i o hi (by omega)
      apply hholds
      · rw [haddr]
        apply hmay _ (by omega) (by omega)
      · right
        left
        omega
    case room => apply hroom
    case head => apply hhead
  rcases debuginfoEip_named hd hlow hend hcheck husd hstrings hsound s (Inspected.start _ s) with
    ⟨r, s', hrun, ⟨addr, hs'⟩, hr⟩
  refine ⟨r, s', hrun, ?_⟩
  rcases hr with herror | ⟨hasked, hzero, hpos, -, hnamed⟩
  · left
    rw [herror]
    rfl
  · right
    constructor
    case readable =>
      rintro va (⟨hge, hlt⟩ | ⟨hge, hlt⟩ | ⟨hge, hlt⟩)
      · have husd := h.usd hasked.usd (va.toNat - USTABDATA.toNat) (by omega)
        rw [Nat.add_sub_cancel' hge] at husd
        apply husd
      · apply (h.stabs hasked hzero hpos).1 _ hge hlt
      · apply h.strings hasked _ hge hlt
    case derefs => apply hs'.derefs
    case file => apply hnamed.file.ends hasked.lt hzero
    case fn_name => apply hnamed.fn_name.ends hasked.lt hzero

/-- In every user address space both kernels stay in the tables if their checks vouch for what is
read behind them. -/
theorem debuginfo_eip_guards (symbols : StabData) (hcur : s.curenv = some cur)
    (hpg : (s.envs cur).envPgdir = some pg) (hwalk : ∀ va, s.Walkable pg va)
    (hlow : eip.toNat < ULIM) :
  (Reliable (s.LabPasses pg) s pg eip →
    Guards (debuginfo_eip (debugOps userMemCheck symbols) eip) s pg)
  ∧ (Reliable (s.RootPasses pg) s pg eip →
    Guards (Root.debuginfo_eip (debugOps Root.userMemCheck symbols) eip) s pg)
  := by
  constructor
  · apply guards_of_reliable hcur hpg hlow (fun q => Or.inl rfl)
    intro va len
    have hjudges := checkByte_inspected s.userStabs s pg va (PTE_U ||| PTE_P) len.toNat
    apply (check_gives hcur hpg hjudges (fun i _ => hwalk _)).mono
    rintro r (⟨rfl, hall⟩ | ⟨rfl, hno⟩)
    · exact iff_of_true rfl hall
    · exact iff_of_false (by decide) hno
  · apply guards_of_reliable hcur hpg hlow (fun q => Or.inr rfl)
    intro va len
    have hjudges := checkPage_inspected s.userStabs s pg va (PTE_U ||| PTE_P)
      (Root.ROUNDDOWN va.toNat PGSIZE) (Root.pagesChecked va len)
    apply (check_gives hcur hpg hjudges (fun i _ => hwalk _)).mono
    rintro r (⟨rfl, hall⟩ | ⟨rfl, hno⟩)
    · exact iff_of_true rfl hall
    · exact iff_of_false (by decide) hno

/-! ### Two programs -/

/-- A kernel whose environment has one page, mapped at `USTABDATA`, with the given table of stabs and
four null characters as the table of strings. -/
def onePage (stabs stab_end : Word) : Kernel where
  mem := write32 (write32 (write32 (write32 (write32 (write32 (fun _ => 0)
    (1 * PGSIZE) (page2pa 2 ||| PTE_P ||| PTE_U))
    (2 * PGSIZE + 4 * 512) (page2pa 3 ||| PTE_P ||| PTE_U))
    (3 * PGSIZE) stabs) (3 * PGSIZE + 4) stab_end) (3 * PGSIZE + 8) 0x200100)
    (3 * PGSIZE + 12) 0x200104
  npages := 4
  kernPgdir := 0
  envs := fun _ => { envPgdir := some 1 }
  curenv := some 0

theorem onePage_walkable (va : Word) :
  (onePage 0x200200 0x200218).Walkable 1 va
  := by
  intro pt hpt
  have hdir : ∀ d < 1024, ((refOf ((onePage 0x200200 0x200218).entry 1 d)).all (· < 4)) = true := by
    decide +kernel
  have hlt := hdir (PDX va) (PDX_lt va)
  rw [hpt] at hlt
  exact of_decide_eq_true hlt

/-- In a table of two stabs in the page, neither is that of a file. -/
theorem onePage_reliable (pass : Word → Word → Prop) :
  Reliable pass (onePage 0x200200 0x200218) 1 0x00800020
  := by
  have hpage : ∀ a, 0x200000 ≤ a → a < 0x201000 →
      (onePage 0x200200 0x200218).MayAccess 1 PTE_U a := by
    intro a hge hlt
    have hsame : a / PGSIZE = 0x200000 / PGSIZE := by
      simp only [PGSIZE]
      omega
    rw [Kernel.mayAccess_congr hsame]
    exact ⟨by decide, 2, by decide +kernel, by decide +kernel⟩
  have hstabs : (onePage 0x200200 0x200218).userStabs.stabs = 0x200200 := by decide +kernel
  have hend : (onePage 0x200200 0x200218).userStabs.stab_end = 0x200218 := by decide +kernel
  have hstr : (onePage 0x200200 0x200218).userStabs.stabstr = 0x200100 := by decide +kernel
  have hstrend : (onePage 0x200200 0x200218).userStabs.stabstr_end = 0x200104 := by decide +kernel
  have hcount : (onePage 0x200200 0x200218).userStabs.count = 2 := by decide +kernel
  constructor
  case usd =>
    intro _ i hi
    have hsize : sizeofUserStabData.toNat = 16 := rfl
    have hbase : USTABDATA.toNat = 0x200000 := rfl
    apply hpage
    · omega
    · omega
  case strings =>
    rw [hstr, hstrend]
    intro _ a hge hlt
    apply hpage a (Nat.le_trans (by decide) hge) (Nat.lt_trans hlt (by decide))
  case stabs =>
    intro _ _ _
    rw [hstabs, hend, hcount]
    refine ⟨?_, by decide, ?_⟩
    · intro a hge hlt
      apply hpage a (Nat.le_trans (by decide) hge) (Nat.lt_trans hlt (by decide))
    · intro hsinks
      have hone : ((2 : Word) - 1).toInt = 1 := rfl
      rw [hone] at hsinks
      cases hsinks with
      | down _ m hb hm hlt h =>
          have hlo := hm.lo
          have hhi : m ≤ 0 := hm.hi
          obtain rfl : m = 0 := by omega
          have htype := hm.holds
          revert htype
          decide +kernel

/-- Both kernels stay in the tables of that program. -/
theorem debuginfo_eip_guards_onePage :
  Guards (debuginfo_eip (debugOps userMemCheck ⟨0, 0, 0, 0⟩) 0x00800020) (onePage 0x200200 0x200218) 1
    ∧ Guards (Root.debuginfo_eip (debugOps Root.userMemCheck ⟨0, 0, 0, 0⟩) 0x00800020)
      (onePage 0x200200 0x200218) 1
  := by
  have h := @debuginfo_eip_guards (onePage 0x200200 0x200218) 0 1 0x00800020 ⟨0, 0, 0, 0⟩ rfl rfl
    onePage_walkable (by decide)
  exact ⟨h.1 (onePage_reliable _), h.2 (onePage_reliable _)⟩

/-- Where a run makes a refused access. -/
def faultAt {α : Type} (r : Except (Stop Kernel) α) : Option Nat :=
  match r with
  | .error (.fault addr) => some addr
  | _ => none

theorem not_guards_of_faultAt {call : Prog Kernel (Word × Eipdebuginfo)} (addr : Nat)
    (h : faultAt (call s) = some addr) :
  ¬ Guards call s pg
  := by
  rintro ⟨r, s', hrun, -⟩
  rw [hrun] at h
  cases h

/-- Of two stabs at the end of the page only the first two bytes are checked. Both kernels fault when
they read the type of the second one. -/
theorem not_guards_onePage :
  ¬ Guards (debuginfo_eip (debugOps userMemCheck ⟨0, 0, 0, 0⟩) 0x00800020) (onePage 0x200FF8 0x201010) 1
    ∧ ¬ Guards (Root.debuginfo_eip (debugOps Root.userMemCheck ⟨0, 0, 0, 0⟩) 0x00800020)
      (onePage 0x200FF8 0x201010) 1
  := by
  constructor
  · apply not_guards_of_faultAt 0x201008
    decide +kernel
  · apply not_guards_of_faultAt 0x201008
    decide +kernel

end Jos
