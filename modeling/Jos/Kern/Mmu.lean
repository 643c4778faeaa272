import Jos.Lib.Bytes

/-!
# The memory management unit

The constants of `inc/mmu.h` and `inc/memlayout.h`, the parts of a linear address, and
the parts of a page-table entry.

Pages of physical memory are named by their page numbers, so that a `struct PageInfo *`
is the index of the structure in `pages`, and the physical address of a page is its
number shifted by `PGSHIFT`.
-/

namespace Jos

open Bytes

/-! ### Paging constants -/

def PGSIZE : Nat := 4096
def PGSHIFT : Nat := 12
def PTXSHIFT : Nat := 12
def PDXSHIFT : Nat := 22
def NPDENTRIES : Nat := 1024
def NPTENTRIES : Nat := 1024
def PTSIZE : Nat := 4194304

/-- Present. -/
def PTE_P : Word := 0x001
/-- Writeable. -/
def PTE_W : Word := 0x002
/-- User. -/
def PTE_U : Word := 0x004
/-- Accessed. -/
def PTE_A : Word := 0x020
/-- Dirty. -/
def PTE_D : Word := 0x040
/-- Available for software use. -/
def PTE_AVAIL : Word := 0xE00
/-- The flags that may be used in system calls. -/
def PTE_SYSCALL : Word := PTE_AVAIL ||| PTE_P ||| PTE_W ||| PTE_U

/-- Page fault caused by a write. -/
def FEC_WR : Word := 0x2

/-- Interrupt flag. -/
def FL_IF : Word := 0x200
/-- I/O privilege level bitmask. -/
def FL_IOPL_MASK : Word := 0x3000
/-- Trap flag. -/
def FL_TF : Word := 0x100
/-- Virtual 8086 mode. -/
def FL_VM : Word := 0x20000

/-! ### Memory layout -/

/-- User text segment selector. -/
def GD_UT : BitVec 16 := 0x18
/-- User data segment selector. -/
def GD_UD : BitVec 16 := 0x20
/-- Kernel text segment selector. -/
def GD_KT : BitVec 16 := 0x08

def KERNBASE : Nat := 0xF0000000
def KSTACKTOP : Nat := KERNBASE
def MMIOLIM : Nat := KSTACKTOP - PTSIZE
def MMIOBASE : Nat := MMIOLIM - PTSIZE
def ULIM : Nat := MMIOBASE
def UVPT : Nat := ULIM - PTSIZE
def UPAGES : Nat := UVPT - PTSIZE
def UENVS : Nat := UPAGES - PTSIZE
def UTOP : Nat := UENVS
def UXSTACKTOP : Nat := UTOP
def USTACKTOP : Nat := UTOP - 2 * PGSIZE
def UTEMP : Nat := PTSIZE

/-! ### Linear addresses -/

/-- Page directory index. -/
def PDX (la : Word) : Nat :=
  ((la >>> PDXSHIFT) &&& 0x3FF).toNat

/-- Page table index. -/
def PTX (la : Word) : Nat :=
  ((la >>> PTXSHIFT) &&& 0x3FF).toNat

/-- Page number field of an address. -/
def PGNUM (la : Word) : Nat :=
  (la >>> PTXSHIFT).toNat

/-- Offset in page. -/
def PGOFF (la : Word) : Nat :=
  (la &&& 0xFFF).toNat

/-- The linear address with directory index `d`, table index `t` and offset `o`. -/
def PGADDR (d t o : Nat) : Word :=
  BitVec.ofNat 32 d <<< PDXSHIFT ||| BitVec.ofNat 32 t <<< PTXSHIFT ||| BitVec.ofNat 32 o

/-- Address in page table or page directory entry. -/
def PTE_ADDR (pte : Word) : Word :=
  pte &&& ~~~ 0xFFF

/-- The physical address of a page. -/
def page2pa (pp : Nat) : Word :=
  BitVec.ofNat 32 pp <<< PGSHIFT

/-! ### Arithmetic of addresses -/

theorem PDX_eq (la : Word) :
  PDX la = la.toNat / 4194304
  := by
  have h := la.isLt
  rw [PDX, BitVec.toNat_and, BitVec.toNat_ushiftRight, PDXSHIFT, Nat.shiftRight_eq_div_pow]
  apply Eq.trans (Nat.and_two_pow_sub_one_eq_mod _ 10)
  omega

theorem PTX_eq (la : Word) :
  PTX la = la.toNat / 4096 % 1024
  := by
  rw [PTX, BitVec.toNat_and, BitVec.toNat_ushiftRight, PTXSHIFT, Nat.shiftRight_eq_div_pow]
  apply Nat.and_two_pow_sub_one_eq_mod _ 10

theorem PGNUM_eq (la : Word) :
  PGNUM la = la.toNat / 4096
  := by
  rw [PGNUM, BitVec.toNat_ushiftRight, PTXSHIFT, Nat.shiftRight_eq_div_pow]

theorem PGOFF_eq (la : Word) :
  PGOFF la = la.toNat % 4096
  := Nat.and_two_pow_sub_one_eq_mod la.toNat 12

theorem PGOFF_lt (la : Word) :
  PGOFF la < PGSIZE
  := by
  rw [PGOFF_eq]
  exact Nat.mod_lt _ (by decide)

theorem PDX_lt (la : Word) :
  PDX la < 1024
  := by
  have h := la.isLt
  rw [PDX_eq]
  omega

theorem PTX_lt (la : Word) :
  PTX la < 1024
  := by
  rw [PTX_eq]
  omega

/-- The directory index of an address below `UTOP` is below that of `UTOP`. -/
theorem PDX_lt_of_lt_UTOP {la : Word} (h : la.toNat < UTOP) :
  PDX la < 955
  := by
  rw [PDX_eq]
  simp only [UTOP, UENVS, UPAGES, UVPT, ULIM, MMIOBASE, MMIOLIM, KSTACKTOP, KERNBASE, PTSIZE] at h
  omega

/-- The parts of an address determine its page. -/
theorem PGNUM_eq_PDX_PTX (la : Word) :
  PGNUM la = PDX la * 1024 + PTX la
  := by
  rw [PGNUM_eq, PDX_eq, PTX_eq]
  omega

theorem PGADDR_toNat {d t : Nat} (hd : d < 1024) (ht : t < 1024) :
  (PGADDR d t 0).toNat = d * 4194304 + t * 4096
  := by
  simp only [PGADDR, PDXSHIFT, PTXSHIFT, BitVec.toNat_or, BitVec.toNat_shiftLeft, BitVec.toNat_ofNat,
    Nat.shiftLeft_eq, Nat.zero_mod, Nat.or_zero]
  rw [Nat.mod_eq_of_lt (a := d) (by omega), Nat.mod_eq_of_lt (a := t) (by omega),
    Nat.mod_eq_of_lt (by omega), Nat.mod_eq_of_lt (by omega)]
  have h := Nat.two_pow_add_eq_or_of_lt (i := 22) (b := t * 4096) (by omega) d
  calc
    d * 2 ^ 22 ||| t * 2 ^ 12 = 2 ^ 22 * d ||| t * 4096 :=
      congrArg₂ (· ||| ·) (Nat.mul_comm d _) (by omega)
    _ = 2 ^ 22 * d + t * 4096 := h.symm
    _ = d * 4194304 + t * 4096 := by omega

@[simp]
theorem PDX_PGADDR {d t : Nat} (hd : d < 1024) (ht : t < 1024) :
  PDX (PGADDR d t 0) = d
  := by
  rw [PDX_eq, PGADDR_toNat hd ht]
  omega

@[simp]
theorem PTX_PGADDR {d t : Nat} (hd : d < 1024) (ht : t < 1024) :
  PTX (PGADDR d t 0) = t
  := by
  rw [PTX_eq, PGADDR_toNat hd ht]
  omega

/-! ### Page-table entries -/

/-- Whether an entry is present. -/
def present (pte : Word) : Bool :=
  pte &&& PTE_P ≠ 0

/-- The page an entry refers to. -/
def ptePage (pte : Word) : Nat :=
  PGNUM (PTE_ADDR pte)

theorem ptePage_eq (pte : Word) :
  ptePage pte = pte.toNat / 4096
  := by
  have hmask : ∀ i < 32, (0xFFF : Word).getLsbD i = decide (i < 12) := by decide
  have h : PTE_ADDR pte >>> 12 = pte >>> 12 := shiftRight_clear_low hmask
  rw [ptePage, PGNUM, PTXSHIFT, h, BitVec.toNat_ushiftRight, Nat.shiftRight_eq_div_pow]

@[simp]
theorem present_zero :
  present 0 = false
  := by decide

theorem page2pa_toNat {p : Nat} (hp : p < 2 ^ 20) :
  (page2pa p).toNat = p * 4096
  := by
  simp only [page2pa, PGSHIFT, BitVec.toNat_shiftLeft, BitVec.toNat_ofNat, Nat.shiftLeft_eq]
  omega

@[simp]
theorem PGNUM_page2pa {p : Nat} (hp : p < 2 ^ 20) :
  PGNUM (page2pa p) = p
  := by
  rw [PGNUM_eq, page2pa_toNat hp]
  omega

/-- A word that has all of some flags has each part of them. -/
theorem and_of_and_or {w p q : Word} (h : w &&& (p ||| q) = p ||| q) :
  w &&& p = p
  := by
  ext i hi
  have hbit := congrArg (fun x : Word => x.getLsbD i) h
  simp only [BitVec.getLsbD_eq_getElem hi, BitVec.getElem_and, BitVec.getElem_or] at hbit
  rw [BitVec.getElem_and]
  cases hp : p[i] with
  | false => rw [Bool.and_false]
  | true =>
      rw [hp, Bool.true_or, Bool.and_true] at hbit
      rw [hbit, Bool.true_and]

/-- A permission word without other flags than those for system calls. -/
theorem and_PTE_SYSCALL {perm : Word} (h : perm &&& ~~~ PTE_SYSCALL = 0) :
  perm &&& PTE_SYSCALL = perm
  := by
  apply BitVec.eq_of_getLsbD_eq
  intro i hi
  have hi' := congrArg (fun w => w.getLsbD i) h
  simp only [BitVec.getLsbD_and, BitVec.getLsbD_not, hi, decide_true, Bool.true_and] at hi'
  rw [BitVec.getLsbD_and]
  cases hb : PTE_SYSCALL.getLsbD i
  · simp_all
  · simp

/-- A permission word without address bits. -/
theorem perm_lt {perm : Word} (h : perm &&& ~~~ PTE_SYSCALL = 0) :
  perm.toNat < 4096
  := by
  rw [← and_PTE_SYSCALL h, BitVec.toNat_and]
  apply Nat.lt_of_le_of_lt Nat.and_le_right
  decide

theorem PTE_P_getLsbD (i : Nat) :
  PTE_P.getLsbD i = decide (i = 0)
  := by
  have h : PTE_P = 1#32 := rfl
  rw [h, BitVec.getLsbD_one]
  simp

/-- A word that is present keeps its value when it is marked as present. -/
theorem or_PTE_P {w : Word} (h : w &&& PTE_P ≠ 0) :
  w ||| PTE_P = w
  := by
  have h0 : w.getLsbD 0 = true := by
    by_contra h0
    apply h
    apply BitVec.eq_of_getLsbD_eq
    intro i hi
    rw [BitVec.getLsbD_and, PTE_P_getLsbD]
    cases i with
    | zero =>
        rw [Bool.eq_false_iff.mpr h0, Bool.false_and]
        rfl
    | succ i => simp
  apply BitVec.eq_of_getLsbD_eq
  intro i hi
  rw [BitVec.getLsbD_or, PTE_P_getLsbD]
  cases i with
  | zero => rw [h0, Bool.true_or]
  | succ i => simp

/-- The flags of the entry made for a page are the permissions asked for. -/
theorem flags_mk (pp : Nat) {perm : Word} (hp : perm &&& PTE_P ≠ 0)
    (h : perm &&& ~~~ PTE_SYSCALL = 0) :
  (page2pa pp ||| perm ||| PTE_P) &&& 0xFFF = perm
  := by
  rw [BitVec.or_assoc, or_PTE_P hp]
  apply BitVec.eq_of_getLsbD_eq
  intro i hi
  have hperm := congrArg (fun w => w.getLsbD i) (and_PTE_SYSCALL h)
  simp only [BitVec.getLsbD_and] at hperm
  rw [BitVec.getLsbD_and, BitVec.getLsbD_or, page2pa, PGSHIFT, BitVec.getLsbD_shiftLeft, ← hperm]
  by_cases hi' : i < 12
  · have hmask : ∀ j : Fin 12, (0xFFF : Word).getLsbD j = true := by decide
    rw [hmask ⟨i, hi'⟩]
    simp [hi']
  · have hmask : ∀ j : Fin 20, (0xFFF : Word).getLsbD (12 + j) = false := by decide
    have hsys : ∀ j : Fin 20, PTE_SYSCALL.getLsbD (12 + j) = false := by decide
    have hj : i = 12 + (⟨i - 12, by omega⟩ : Fin 20).val := by
      simp only
      omega
    rw [hj, hmask, hsys]
    simp

/-- The entry made for a page with permissions `perm` refers to that page. -/
theorem ptePage_mk {p : Nat} {perm : Word} (hp : p < 2 ^ 20) (h : perm.toNat < 4096) :
  ptePage (page2pa p ||| perm ||| PTE_P) = p
  := by
  rw [ptePage_eq, BitVec.toNat_or, BitVec.toNat_or, page2pa_toNat hp,
    ← Nat.shiftRight_eq_div_pow _ 12, Nat.shiftRight_or_distrib, Nat.shiftRight_or_distrib]
  have h1 : perm.toNat >>> 12 = 0 := by
    rw [Nat.shiftRight_eq_div_pow]
    omega
  have h2 : PTE_P.toNat >>> 12 = 0 := by decide
  have h3 : (p * 4096) >>> 12 = p := by
    rw [Nat.shiftRight_eq_div_pow]
    omega
  rw [h1, h2, h3]
  simp

/-- The entry made for a page is present. -/
theorem present_mk (pa perm : Word) :
  present (pa ||| perm ||| PTE_P) = true
  := by
  have h : (pa ||| perm ||| PTE_P) &&& PTE_P = PTE_P := by
    rw [BitVec.and_comm]
    apply BitVec.eq_of_getLsbD_eq
    intro i hi
    simp only [BitVec.getLsbD_and, BitVec.getLsbD_or]
    cases PTE_P.getLsbD i
    · simp
    · simp
  simp only [present, h]
  decide

end Jos
