import Jos.User.Calls

/-!
# The first stack of a program

`init_stack` of `lib/spawn.c` puts the arguments of a new program on the page that will be its
stack: the strings at the top, the argument vector below them, and below that the two words
with which `umain` is called.  The page is put together at `UTEMP`, and is then mapped in the new
environment and unmapped.

Whether all this fits is found out by comparing pointers, which go round where the strings are
very long.
-/

namespace Jos

namespace User

open Bytes Prog View

/-! ### The source -/

def UTEMP : Word := BitVec.ofNat 32 Jos.UTEMP
def USTACKTOP : Word := BitVec.ofNat 32 Jos.USTACKTOP

/-- The size of a page, as an offset. -/
def PAGE : Word := BitVec.ofNat 32 PGSIZE

/-- Round down to a multiple of `n`. -/
def ROUNDDOWN (a n : Word) : Word :=
  a - a % n

/-- The address in the stack of the child of what lies at `addr` in the page at `UTEMP`. -/
def UTEMP2USTACK (addr : Word) : Word :=
  addr + (USTACKTOP - PAGE) - UTEMP

/-- Permissions to read and write. -/
def PTE_PUW : Word := PTE_P ||| PTE_U ||| PTE_W

/-- Count the arguments from `argc` on, and add the size of their strings to `stringSize`. -/
def countArgs (argv : Word) : Nat → Nat → Word → Prog World (Nat × Word)
  | 0, argc, stringSize => pure (argc, stringSize)
  | n + 1, argc, stringSize => do
      let p ← load32 (off argv (4 * argc))
      if p ≠ 0 then
        let len ← strlen p
        countArgs argv n (argc + 1) (stringSize + (len + 1))
      else
        pure (argc, stringSize)

/-- Copy the `n` arguments from the `i`-th one on. The result is where the strings end. -/
def copyArgs (argv argvStore : Word) : Nat → Nat → Word → Prog World Word
  | 0, _, stringStore => pure stringStore
  | n + 1, i, stringStore => do
      store32 (off argvStore (4 * i)) (UTEMP2USTACK stringStore)
      let p ← load32 (off argv (4 * i))
      strcpy stringStore p
      let p ← load32 (off argv (4 * i))
      let len ← strlen p
      copyArgs argv argvStore n (i + 1) (stringStore + (len + 1))

/-- Map the page at `UTEMP` as the stack of the environment `child`, which starts with the stack
pointer `initEsp`, and unmap it here. -/
def giveStack (child initEsp : Word) : Prog World (Except Word Word) := do
  let r ← sysPageMap 0 UTEMP child (USTACKTOP - PAGE) PTE_PUW
  if isError r then
    let _ ← sysPageUnmap 0 UTEMP
    pure (.error r)
  else
    let r ← sysPageUnmap 0 UTEMP
    if isError r then
      let _ ← sysPageUnmap 0 UTEMP
      pure (.error r)
    else
      pure (.ok initEsp)

/-- Set up the stack of the environment `child` with the `argc` arguments at `argv`: the strings are
to lie at `stringStore`, and the pointers at `argvStore`. The result is an error, or the stack pointer
with which the child starts. -/
def fillStack (child argv : Word) (argc : Nat) (stringStore argvStore : Word) :
    Prog World (Except Word Word) := do
  let r ← sysPageAlloc 0 UTEMP PTE_PUW
  if isError r then
    pure (.error r)
  else
    let stringStore ← copyArgs argv argvStore argc 0 stringStore
    store32 (off argvStore (4 * argc)) 0
    if stringStore ≠ UTEMP + PAGE then
      Prog.panic "assertion failed: string_store == (char*)UTEMP + PGSIZE"
    else
      store32 (argvStore - 4) (UTEMP2USTACK argvStore)
      store32 (argvStore - 8) (BitVec.ofNat 32 argc)
      giveStack child (UTEMP2USTACK (argvStore - 8))

/-- Set up the stack of the environment `child` with the arguments `argv`, if they fit on a page. -/
def initStack (child argv : Word) : Prog World (Except Word Word) := do
  let (argc, stringSize) ← countArgs argv ADDRESSES 0 0
  let stringStore := UTEMP + PAGE - stringSize
  let argvStore := ROUNDDOWN stringStore 4 - BitVec.ofNat 32 (4 * (argc + 1))
  if (argvStore - 8).toNat < UTEMP.toNat then
    pure (.error (-E_NO_MEM))
  else
    fillStack child argv argc stringStore argvStore

/-! ### Sizes -/

/-- The strings with their zero bytes. -/
def stringSize (args : List (Word × List Byte)) : Nat :=
  (args.map (fun arg => arg.2.length + 1)).sum

/-- What is needed on the stack: the strings, down to a multiple of 4, the pointers to them and
a null pointer, and two words. -/
def stackSize (args : List (Word × List Byte)) : Nat :=
  (stringSize args + 3) / 4 * 4 + 4 * (args.length + 1) + 8

theorem stringSize_cons (arg : Word × List Byte) (args : List (Word × List Byte)) :
  stringSize (arg :: args) = arg.2.length + 1 + stringSize args
  := by
  rw [stringSize, List.map_cons, List.sum_cons]
  rfl

/-- The size for a single argument. -/
theorem stackSize_singleton (p : Word) (bs : List Byte) :
  stackSize [(p, bs)] = (bs.length + 1 + 3) / 4 * 4 + 4 * (1 + 1) + 8
  := rfl

theorem roundDown_toNat (a : Word) :
  (ROUNDDOWN a 4).toNat = a.toNat - a.toNat % 4
  := by
  have h4 : (a % 4).toNat = a.toNat % 4 := BitVec.toNat_umod
  rw [ROUNDDOWN, BitVec.toNat_sub, h4]
  generalize a.toNat = x, a.isLt = hx
  omega

/-- Rounding down below the end of the page. -/
theorem roundDown_eq (n : Nat) :
  ROUNDDOWN (UTEMP + PAGE - BitVec.ofNat 32 n) 4 = UTEMP + PAGE - BitVec.ofNat 32 ((n + 3) / 4 * 4)
  := by
  have hend : (UTEMP + PAGE).toNat = 4198400 := by decide
  apply BitVec.eq_of_toNat_eq
  rw [roundDown_toNat, BitVec.toNat_sub, BitVec.toNat_sub, BitVec.toNat_ofNat, BitVec.toNat_ofNat,
    hend]
  omega

/-- Where the two words lie, counted down from the end of the page. -/
theorem bottom_eq (args : List (Word × List Byte)) :
  ROUNDDOWN (UTEMP + PAGE - BitVec.ofNat 32 (stringSize args)) 4
      - BitVec.ofNat 32 (4 * (args.length + 1)) - 8
    = UTEMP + PAGE - BitVec.ofNat 32 (stackSize args)
  := by
  have h8 : (8 : Word) = BitVec.ofNat 32 8 := rfl
  rw [roundDown_eq, stackSize, BitVec.ofNat_add, BitVec.ofNat_add, h8]
  generalize BitVec.ofNat 32 ((stringSize args + 3) / 4 * 4) = x
  generalize BitVec.ofNat 32 (4 * (args.length + 1)) = y
  grind

/-- The comparison of `init_stack` is right: the size is that of a page at most, or the pointer
that is compared does not go round to an address above `UTEMP`. -/
def NoWrap (args : List (Word × List Byte)) : Prop :=
  stackSize args ≤ PGSIZE ∨
    (0 < (stackSize args - PGSIZE) % 2 ^ 32 ∧ (stackSize args - PGSIZE) % 2 ^ 32 ≤ Jos.UTEMP)

/-- When `init_stack` finds that there is no room. -/
theorem noRoom_iff (args : List (Word × List Byte)) :
  (UTEMP + PAGE - BitVec.ofNat 32 (stackSize args)).toNat < UTEMP.toNat ↔
    ¬ stackSize args ≤ PGSIZE ∧ NoWrap args
  := by
  have hend : (UTEMP + PAGE).toNat = 4198400 := by decide
  have htemp : UTEMP.toNat = 4194304 := by decide
  rw [BitVec.toNat_sub, BitVec.toNat_ofNat, hend, htemp, NoWrap]
  simp only [PGSIZE, Jos.UTEMP, PTSIZE]
  omega

/-! ### Counting the arguments -/

variable {w : World} {argv : Word} {args : List (Word × List Byte)}

/-- The arguments are counted, and nothing changes. -/
theorem countArgs_eq {n argc : Nat} (h : (w.view w.self).Args (off argv (4 * argc)) args)
    (hn : args.length < n) (size : Word) :
  countArgs argv n argc size w
    = .ok ((argc + args.length, size + BitVec.ofNat 32 (stringSize args)), w)
  := by
  induction args generalizing n argc size with
  | nil =>
      obtain ⟨n, rfl⟩ := Nat.exists_eq_succ_of_ne_zero (Nat.ne_of_gt hn)
      rw [countArgs, bind_of_eq (load32_eq h), if_neg (not_not.mpr rfl)]
      exact congrArg (fun x => Except.ok ((argc, x), w)) (BitVec.add_zero size).symm
  | cons arg args ih =>
      obtain ⟨n, rfl⟩ := Nat.exists_eq_succ_of_ne_zero (Nat.ne_of_gt (Nat.zero_lt_of_lt hn))
      obtain ⟨hp, hne, hs, hrest⟩ := h
      rw [countArgs, bind_of_eq (load32_eq hp), if_pos hne, bind_of_eq (strlen_eq hs)]
      have hoff : off argv (4 * (argc + 1)) = off (off argv (4 * argc)) 4 := by
        rw [off_off, Nat.mul_add]
      rw [List.length_cons] at hn
      rw [ih (by rw [hoff]; exact hrest) (by omega), List.length_cons, stringSize_cons,
        Nat.add_comm args.length, ← Nat.add_assoc, BitVec.ofNat_add, BitVec.ofNat_add]
      congr 3
      grind

/-! ### Copying the arguments -/

/-- The address of the byte `o` of the page that will be the stack. -/
def stackAddr (o : Nat) : Word :=
  off (USTACKTOP - PAGE) o

theorem utemp2ustack_eq (o : Nat) :
  UTEMP2USTACK (off UTEMP o) = stackAddr o
  := by
  rw [UTEMP2USTACK, stackAddr, off, off]
  grind

/-- The page `p` holds the pointers from `a` on and the strings from `o` on. -/
def Copied (m : Memory) (p : Nat) : Nat → Nat → List (Word × List Byte) → Prop
  | _, _, [] => True
  | a, o, (_, bs) :: args =>
      read32 m (p * PGSIZE + a) = stackAddr o ∧ StringAt m (p * PGSIZE + o) bs
        ∧ Copied m p (a + 4) (o + (bs.length + 1)) args

/-- What was copied is still there if memory changes elsewhere only. -/
theorem Copied.congr {m m' : Memory} {p a o : Nat} (h : Copied m p a o args)
    (hm : ∀ x, (a ≤ x ∧ x < a + 4 * args.length) ∨ (o ≤ x ∧ x < o + stringSize args) →
      m' (p * PGSIZE + x) = m (p * PGSIZE + x)) :
  Copied m' p a o args
  := by
  induction args generalizing a o with
  | nil => trivial
  | cons arg args ih =>
      obtain ⟨hptr, hstr, hrest⟩ := h
      rw [List.length_cons, stringSize_cons] at hm
      have hsame : ∀ x, p * PGSIZE ≤ x →
          (a ≤ x - p * PGSIZE ∧ x - p * PGSIZE < a + 4 * (args.length + 1)) ∨
          (o ≤ x - p * PGSIZE ∧ x - p * PGSIZE < o + (arg.2.length + 1 + stringSize args)) →
          m' x = m x := by
        intro x hx hin
        have hx' := hm (x - p * PGSIZE) hin
        rw [Nat.add_sub_of_le hx] at hx'
        exact hx'
      refine ⟨?_, ?_, ?_⟩
      · rw [← hptr]
        apply read32_congr
        intro x hx hx'
        exact hsame x (by omega) (by omega)
      · apply hstr.congr
        intro x hx hx'
        exact hsame x (by omega) (by omega)
      · apply ih hrest
        intro x hx
        apply hm
        omega

/-- The arguments are copied to where there is room: the pointers from `a` on, and the strings from
`o` to the end of the page. -/
theorem copyArgs_eq {v : View} {p a o i : Nat} (h : Room w v UTEMP p)
    (hargs : v.Args (off argv (4 * i)) args) (hao : a + 4 * (i + args.length) ≤ o)
    (hend : o + stringSize args = PGSIZE) :
  ∃ m, copyArgs argv (off UTEMP a) args.length i (off UTEMP o) w
      = .ok (off UTEMP PGSIZE, w.setMem m)
    ∧ Copied m p (a + 4 * i) o args
    ∧ ∀ x, (x < p * PGSIZE + (a + 4 * i) ∨
        (p * PGSIZE + (a + 4 * (i + args.length)) ≤ x ∧ x < p * PGSIZE + o) ∨
        p * PGSIZE + PGSIZE ≤ x) →
      m x = w.mem x
  := by
  induction args generalizing w i o with
  | nil =>
      rw [stringSize, List.map_nil, List.sum_nil, Nat.add_zero] at hend
      subst hend
      exact ⟨w.mem, rfl, trivial, fun _ _ => rfl⟩
  | cons arg args ih =>
      obtain ⟨hp, -, hs, hrest⟩ := hargs
      rw [stringSize_cons] at hend
      rw [List.length_cons] at hao
      -- the pointer is stored
      obtain ⟨m1, hm1⟩ : ∃ m1, m1 = write32 w.mem (p * PGSIZE + (a + 4 * i)) (stackAddr o) :=
        ⟨_, rfl⟩
      have hsame1 : SameBut p (a + 4 * i) 4 w.mem m1 := by
        intro x hx
        rw [hm1, write32_of_disjoint]
        omega
      have hstore : store32 (off (off UTEMP a) (4 * i)) (stackAddr o) w
          = .ok ((), w.setMem m1) := by
        rw [hm1, off_off]
        apply store32_eq
        intro k hk
        rw [off_off, Nat.add_assoc (p * PGSIZE)]
        apply h.writable
        omega
      have h1 : Room (w.setMem m1) v UTEMP p := by
        apply h.setMem
        intro x hx
        apply hsame1
        omega
      -- the string is copied
      obtain ⟨m2, hcopy, hstr, hsame2⟩ := h1.strcpy_eq (o := o) hs (by omega)
      have hcopy : strcpy (off UTEMP o) arg.1 (w.setMem m1) = .ok ((), w.setMem m2) := hcopy
      have h2 : Room (w.setMem m2) v UTEMP p := by
        apply h1.setMem
        intro x hx
        apply hsame2
        omega
      -- the rest is copied behind it
      have hoff : off argv (4 * (i + 1)) = off (off argv (4 * i)) 4 := by
        rw [off_off, Nat.mul_add]
      obtain ⟨m, heq, hcopied, hsame⟩ := ih (i := i + 1) (o := o + (arg.2.length + 1)) h2
        (by rw [hoff]; exact hrest) (by omega) (by omega)
      have hnext : off UTEMP o + (BitVec.ofNat 32 arg.2.length + 1)
          = off UTEMP (o + (arg.2.length + 1)) := by
        rw [← off_off, off, off, BitVec.ofNat_add arg.2.length]
        rfl
      use m
      constructor
      · rw [List.length_cons, copyArgs, utemp2ustack_eq, bind_of_eq hstore,
          bind_of_eq (load32_eq (h1.within.word hp)), bind_of_eq hcopy]
        rw [bind_of_eq (load32_eq (w := w.setMem m2) (h2.within.word hp)),
          bind_of_eq (strlen_eq (w := w.setMem m2) (h2.within.str hs)), hnext]
        exact heq
      · constructor
        · refine ⟨?_, ?_, ?_⟩
          · have hptr : read32 m1 (p * PGSIZE + (a + 4 * i)) = stackAddr o := by
              rw [hm1, read32_write32]
            rw [← hptr]
            apply read32_congr
            intro x hx hx'
            have hx1 := hsame2 x (by omega)
            have hx2 := hsame x (by omega)
            exact hx2.trans hx1
          · apply hstr.congr
            intro x hx hx'
            exact hsame x (by omega)
          · rw [show a + 4 * i + 4 = a + 4 * (i + 1) by omega]
            exact hcopied
        · intro x hx
          rw [List.length_cons] at hx
          have hx1 := hsame1 x (by omega)
          have hx2 := hsame2 x (by omega)
          have hx3 := hsame x (by omega)
          exact hx3.trans (hx2.trans hx1)

/-! ### What a stack is to hold -/

/-- A range of addresses, given by its first address and its length. -/
abbrev Region := Nat × Nat

/-- Two ranges have no address in common. -/
def Region.Apart (r r' : Region) : Prop :=
  r.1 + r.2 ≤ r'.1 ∨ r'.1 + r'.2 ≤ r.1

/-- What the environment `e` reads in its stack page. -/
def World.stackView (w : World) (e : Word) : View :=
  (w.view e).on (fun a => PGNUM a = PGNUM (USTACKTOP - PAGE))

/-- The stack of the environment `e` holds, from `esp` on, the number of the arguments `strs` and
a pointer to an argument vector with these strings. All of it lies in the stack page, and no two
parts of it share an address. -/
def World.HoldsArgs (w : World) (e esp : Word) (strs : List (List Byte)) : Prop :=
  ∃ (argv : Word) (args : List (Word × List Byte)), args.map Prod.snd = strs
    ∧ (w.stackView e).word esp = some (BitVec.ofNat 32 args.length)
    ∧ (w.stackView e).word (off esp 4) = some argv
    ∧ (w.stackView e).Args argv args
    ∧ ((esp.toNat, 8) :: (argv.toNat, 4 * (args.length + 1)) ::
        args.map (fun arg => (arg.1.toNat, arg.2.length + 1))).Pairwise Region.Apart

/-- `init_stack` does its work for the answers `w` gives: it refuses arguments that do not fit on a page
and changes nothing, and if they do and there is memory, it sets up the stack of the child and
leaves nothing mapped at `UTEMP`. -/
def InitStackRight (w : World) (child argv : Word) (args : List (Word × List Byte)) : Prop :=
  (PGSIZE < stackSize args → initStack child argv w = .ok (.error (-E_NO_MEM), w)) ∧
  (stackSize args ≤ PGSIZE → isError (w.fate 0) = false → isError (w.tables 0) = false →
    ∃ esp w', initStack child argv w = .ok (.ok esp, w')
      ∧ w'.HoldsArgs child esp (args.map Prod.snd) ∧ w'.entry w'.self UTEMP = none)

/-! ### Setting up the stack -/

section Fits

/-- An address in the page at `UTEMP`, counted down from its end. -/
theorem down_eq {n : Nat} (h : n ≤ PGSIZE) :
  UTEMP + PAGE - BitVec.ofNat 32 n = off UTEMP (PGSIZE - n)
  := by
  have hsum : PAGE = BitVec.ofNat 32 (PGSIZE - n) + BitVec.ofNat 32 n := by
    rw [← BitVec.ofNat_add, Nat.sub_add_cancel h]
    rfl
  rw [off, hsum]
  grind

/-- Where the argument vector lies in the page at `UTEMP`. -/
theorem argvStore_eq (hfits : stackSize args ≤ PGSIZE) :
  ROUNDDOWN (UTEMP + PAGE - BitVec.ofNat 32 (stringSize args)) 4
      - BitVec.ofNat 32 (4 * (args.length + 1))
    = off UTEMP (PGSIZE - stackSize args + 8)
  := by
  have h := bottom_eq args
  rw [down_eq hfits] at h
  rw [← off_off, ← h, off]
  grind

/-- A word is stored in the page at `UTEMP`. -/
theorem Room.store32_eq {v : View} {p o : Nat} (h : Room w v UTEMP p) (ho : o + 4 ≤ PGSIZE)
    (x : Word) :
  store32 (off UTEMP o) x w = .ok ((), w.setMem (write32 w.mem (p * PGSIZE + o) x))
  := by
  apply User.store32_eq
  intro i hi
  rw [off_off, Nat.add_assoc]
  apply h.writable
  omega

/-- What the page `p` holds from `b` on once the stack is set up: the two words, the pointers with
a null pointer, and the strings. -/
structure StackPage (m : Memory) (p b : Nat) (args : List (Word × List Byte)) : Prop where
  argc : read32 m (p * PGSIZE + b) = BitVec.ofNat 32 args.length
  argv : read32 m (p * PGSIZE + (b + 4)) = stackAddr (b + 8)
  copied : Copied m p (b + 8) (PGSIZE - stringSize args) args
  null : read32 m (p * PGSIZE + (b + 8 + 4 * args.length)) = 0

/-- The part of `init_stack` that fills the page. -/
theorem fillPage_eq {v : View} {p b : Nat} {α : Type} (h : Room w v UTEMP p)
    (hargs : v.Args argv args) (hb : b + stackSize args = PGSIZE) (k : Prog World α) :
  ∃ m, StackPage m p b args ∧ SameBut p 0 PGSIZE w.mem m ∧
    (do
      let stringStore ← copyArgs argv (off UTEMP (b + 8)) args.length 0
        (off UTEMP (PGSIZE - stringSize args))
      store32 (off (off UTEMP (b + 8)) (4 * args.length)) 0
      if stringStore ≠ UTEMP + PAGE then
        Prog.panic "assertion failed: string_store == (char*)UTEMP + PGSIZE"
      else
        store32 (off UTEMP (b + 8) - 4) (UTEMP2USTACK (off UTEMP (b + 8)))
        store32 (off UTEMP (b + 8) - 8) (BitVec.ofNat 32 args.length)
        k : Prog World α) w = k (w.setMem m)
  := by
  have hsize : stringSize args + 4 * (args.length + 1) + 8 ≤ stackSize args := by
    rw [stackSize]
    omega
  have hargs0 : v.Args (off argv (4 * 0)) args := by
    rw [Nat.mul_zero, off_zero]
    exact hargs
  obtain ⟨m1, hcopy, hcopied, hsame⟩ := copyArgs_eq (a := b + 8) (o := PGSIZE - stringSize args) h
    hargs0 (by omega) (by omega)
  have hroom : ∀ m, (∀ x, x < p * PGSIZE ∨ p * PGSIZE + PGSIZE ≤ x → m x = m1 x) →
      Room (w.setMem m) v UTEMP p := by
    intro m hm
    apply h.setMem
    intro x hx
    rw [hm x (by omega), hsame x (by omega)]
  have hstore : ∀ {m} o y, (∀ x, x < p * PGSIZE ∨ p * PGSIZE + PGSIZE ≤ x → m x = m1 x) →
      o + 4 ≤ PGSIZE → store32 (off UTEMP o) y (w.setMem m)
        = .ok ((), w.setMem (write32 m (p * PGSIZE + o) y)) :=
    fun o y hm ho => (hroom _ hm).store32_eq ho y
  have hwrite : ∀ {m : Memory} o y, (∀ x, x < p * PGSIZE ∨ p * PGSIZE + PGSIZE ≤ x → m x = m1 x) →
      o + 4 ≤ PGSIZE → ∀ x, x < p * PGSIZE ∨ p * PGSIZE + PGSIZE ≤ x →
        write32 m (p * PGSIZE + o) y x = m1 x := by
    intro m o y hm ho x hx
    rw [write32_of_disjoint _ _ (by omega)]
    exact hm x hx
  obtain ⟨m2, hm2⟩ : ∃ m2, m2 = write32 m1 (p * PGSIZE + (b + 8 + 4 * args.length)) 0 := ⟨_, rfl⟩
  obtain ⟨m3, hm3⟩ : ∃ m3, m3 = write32 m2 (p * PGSIZE + (b + 4)) (stackAddr (b + 8)) := ⟨_, rfl⟩
  obtain ⟨m4, hm4⟩ : ∃ m4, m4 = write32 m3 (p * PGSIZE + b) (BitVec.ofNat 32 args.length) :=
    ⟨_, rfl⟩
  have h1 : ∀ x, x < p * PGSIZE ∨ p * PGSIZE + PGSIZE ≤ x → m1 x = m1 x := fun _ _ => rfl
  have h2 : ∀ x, x < p * PGSIZE ∨ p * PGSIZE + PGSIZE ≤ x → m2 x = m1 x := by
    rw [hm2]
    exact hwrite _ _ h1 (by omega)
  have h3 : ∀ x, x < p * PGSIZE ∨ p * PGSIZE + PGSIZE ≤ x → m3 x = m1 x := by
    rw [hm3]
    exact hwrite _ _ h2 (by omega)
  have hrest : ∀ x, x < p * PGSIZE ∨ p * PGSIZE + PGSIZE ≤ x → m4 x = m1 x := by
    rw [hm4]
    exact hwrite _ _ h3 (by omega)
  use m4
  constructor
  · constructor
    case argc => rw [hm4, read32_write32]
    case argv => rw [hm4, read32_write32_of_disjoint _ _ (by omega), hm3, read32_write32]
    case null =>
      rw [hm4, read32_write32_of_disjoint _ _ (by omega), hm3,
        read32_write32_of_disjoint _ _ (by omega), hm2, read32_write32]
    case copied =>
      apply hcopied.congr
      intro x hx
      rw [hm4, write32_of_disjoint _ _ (by omega), hm3, write32_of_disjoint _ _ (by omega), hm2,
        write32_of_disjoint _ _ (by omega)]
  constructor
  · intro x hx
    rw [hrest x (by omega), hsame x (by omega)]
  · have hend : off UTEMP PGSIZE = UTEMP + PAGE := rfl
    have h4 : off UTEMP (b + 8) - 4 = off UTEMP (b + 4) := by
      rw [show b + 8 = b + 4 + 4 by omega, ← off_off, off]
      exact BitVec.add_sub_cancel _ _
    have h8 : off UTEMP (b + 8) - 8 = off UTEMP b := by
      rw [← off_off, off]
      exact BitVec.add_sub_cancel _ _
    rw [bind_of_eq hcopy, off_off, bind_of_eq (hstore _ _ h1 (by omega)), ← hm2, hend,
      if_neg (not_not.mpr rfl), h4, h8, utemp2ustack_eq, bind_of_eq (hstore _ _ h2 (by omega)), ← hm3,
      bind_of_eq (hstore _ _ h3 (by omega)), ← hm4]

end Fits

/-! ### What the child reads -/

section Child

variable {m : Memory} {p b o : Nat} {v : View}

theorem stackAddr_toNat (ho : o ≤ PGSIZE) :
  (stackAddr o).toNat = 4005548032 + o
  := by
  have htop : (USTACKTOP - PAGE).toNat = 4005548032 := by decide
  simp only [PGSIZE] at ho
  rw [stackAddr, off_toNat, htop]
  omega

/-- The arguments that were copied, with the addresses at which the child finds them. -/
def placed : Nat → List (Word × List Byte) → List (Word × List Byte)
  | _, [] => []
  | o, (_, bs) :: args => (stackAddr o, bs) :: placed (o + (bs.length + 1)) args

theorem placed_strings (o : Nat) (args : List (Word × List Byte)) :
  (placed o args).map Prod.snd = args.map Prod.snd
  := by
  induction args generalizing o with
  | nil => rfl
  | cons arg args ih => rw [placed, List.map_cons, List.map_cons, ih]

theorem placed_length (o : Nat) (args : List (Word × List Byte)) :
  (placed o args).length = args.length
  := by
  have h := congrArg List.length (placed_strings o args)
  rw [List.length_map, List.length_map] at h
  exact h

/-- The strings lie behind each other. -/
theorem placed_apart (hend : o + stringSize args ≤ PGSIZE) :
  ((placed o args).map (fun arg => (arg.1.toNat, arg.2.length + 1))).Pairwise Region.Apart
    ∧ ∀ r ∈ (placed o args).map (fun arg => (arg.1.toNat, arg.2.length + 1)),
        (stackAddr o).toNat ≤ r.1
  := by
  induction args generalizing o with
  | nil =>
      constructor
      · exact List.Pairwise.nil
      · intro r hr
        cases hr
  | cons arg args ih =>
      rw [stringSize_cons] at hend
      obtain ⟨hpair, hall⟩ := ih (o := o + (arg.2.length + 1)) (by omega)
      have h0 := stackAddr_toNat (o := o) (by omega)
      have h1 := stackAddr_toNat (o := o + (arg.2.length + 1)) (by omega)
      rw [placed, List.map_cons]
      constructor
      · apply List.Pairwise.cons _ hpair
        intro r hr
        left
        have hr' := hall r hr
        simp only
        omega
      · intro r hr
        obtain rfl | hr := List.mem_cons.mp hr
        · exact Nat.le_refl _
        · have hr' := hall r hr
          omega

variable (hshown : ∀ o < PGSIZE, v (stackAddr o) = some (m (p * PGSIZE + o)))
include hshown

theorem stack_word (ho : o + 4 ≤ PGSIZE) :
  v.word (stackAddr o) = some (read32 m (p * PGSIZE + o))
  := by
  apply word_of_bytes
  intro i hi
  rw [stackAddr, off_off, Nat.add_assoc]
  apply hshown
  omega

/-- What was copied, with the null pointer behind the pointers, is an argument vector for the
child. -/
theorem Copied.vector {a : Nat} (h : Copied m p a o args) (hao : a + 4 * (args.length + 1) ≤ PGSIZE)
    (hend : o + stringSize args ≤ PGSIZE)
    (hnull : read32 m (p * PGSIZE + (a + 4 * args.length)) = 0) :
  v.Args (stackAddr a) (placed o args)
  := by
  induction args generalizing a o with
  | nil =>
      rw [placed, Args, stack_word hshown (by omega), ← hnull]
      rfl
  | cons arg args ih =>
      obtain ⟨hptr, hstr, hrest⟩ := h
      rw [List.length_cons] at hao hnull
      rw [stringSize_cons] at hend
      refine ⟨?_, ?_, ?_, ?_⟩
      · rw [stack_word hshown (by omega), hptr]
      · intro hzero
        have hnat := stackAddr_toNat (o := o) (by omega)
        rw [hzero] at hnat
        have hnat0 : (0 : Word).toNat = 0 := rfl
        omega
      · constructor
        case bytes =>
          intro i hi
          rw [stackAddr, off_off, ← stackAddr, hshown _ (by omega), ← Nat.add_assoc,
            bytesAt_iff.mp hstr.bytes i hi]
        case zero =>
          rw [stackAddr, off_off, ← stackAddr, hshown _ (by omega), ← Nat.add_assoc, hstr.zero]
        case notMem => exact hstr.notMem
      · rw [show stackAddr a + 4 = stackAddr (a + 4) from off_off _ a 4]
        apply ih hrest (by omega) (by omega)
        rw [← hnull]
        congr 2
        omega

end Child

/-- An environment whose stack page was filled holds the arguments. -/
theorem StackPage.holdsArgs {child : Word} {p b : Nat} (h : StackPage w.mem p b args)
    (hb : b + stackSize args = PGSIZE)
    (hentry : w.entry child (USTACKTOP - PAGE) = some ⟨p, PTE_PUW⟩) :
  w.HoldsArgs child (stackAddr b) (args.map Prod.snd)
  := by
  have hshown : ∀ o < PGSIZE, w.stackView child (stackAddr o) = some (w.mem (p * PGSIZE + o)) := by
    intro o ho
    obtain ⟨hnum, hoff⟩ := @off_page (USTACKTOP - PAGE) o (by decide) ho
    rw [World.stackView, on, stackAddr, if_pos hnum, view_eq_some]
    refine ⟨_, ?_, rfl⟩
    rw [translate_eq_some]
    have hread : PTE_PUW &&& PTE_U = PTE_U := by decide
    refine ⟨⟨p, PTE_PUW⟩, ?_, hread, by rw [hoff]⟩
    rw [← hentry, World.entry, World.entry, hnum]
  have hsize : stringSize args + 4 * (args.length + 1) + 8 ≤ stackSize args := by
    rw [stackSize]
    omega
  have hstrings : (PGSIZE - stringSize args) + stringSize args ≤ PGSIZE := by omega
  obtain ⟨hpair, hall⟩ := placed_apart hstrings
  have h0 := stackAddr_toNat (o := b) (by omega)
  have h8 := stackAddr_toNat (o := b + 8) (by omega)
  have hs := stackAddr_toNat (o := PGSIZE - stringSize args) (by omega)
  refine ⟨stackAddr (b + 8), placed (PGSIZE - stringSize args) args, placed_strings _ _, ?_, ?_, ?_,
    ?_⟩
  · rw [stack_word hshown (by omega), h.argc, placed_length]
  · rw [stackAddr, off_off, ← stackAddr, stack_word hshown (by omega), h.argv]
  · exact h.copied.vector hshown (by omega) hstrings h.null
  · rw [placed_length]
    apply List.Pairwise.cons
    · intro r hr
      left
      obtain rfl | hr := List.mem_cons.mp hr
      · simp only
        omega
      · have hr' := hall r hr
        simp only
        omega
    · apply List.Pairwise.cons _ hpair
      intro r hr
      left
      have hr' := hall r hr
      simp only
      omega

/-! ### The run -/

/-- `init_stack` counts the arguments, and refuses those for which the pointer it compares is below
`UTEMP`. -/
theorem initStack_eq (hargs : (w.view w.self).Args argv args) :
  (¬ stackSize args ≤ PGSIZE ∧ NoWrap args → initStack child argv w = .ok (.error (-E_NO_MEM), w)) ∧
  (¬ (¬ stackSize args ≤ PGSIZE ∧ NoWrap args) → initStack child argv w =
    fillStack child argv args.length (UTEMP + PAGE - BitVec.ofNat 32 (stringSize args))
      (ROUNDDOWN (UTEMP + PAGE - BitVec.ofNat 32 (stringSize args)) 4
        - BitVec.ofNat 32 (4 * (args.length + 1))) w)
  := by
  have hlen := hargs.length_lt
  have hargs0 : (w.view w.self).Args (off argv (4 * 0)) args := by
    rw [Nat.mul_zero, off_zero]
    exact hargs
  have hsize : (0 : Word) + BitVec.ofNat 32 (stringSize args) = BitVec.ofNat 32 (stringSize args) :=
    BitVec.zero_add _
  rw [initStack, bind_of_eq (countArgs_eq hargs0 (by rw [ADDRESSES]; omega) 0), hsize,
    Nat.zero_add, ← noRoom_iff, ← bottom_eq]
  constructor
  · intro h
    simp only
    rw [if_pos h]
    rfl
  · intro h
    simp only
    rw [if_neg h]

theorem proper_puw :
  ProperPerm PTE_PUW
  := by decide

theorem userPageAddr_UTEMP :
  UserPageAddr UTEMP ∧ UserPageAddr (USTACKTOP - PAGE)
  := by decide

/-- The world in which a page was allocated at `UTEMP`. -/
structure TempPage (w w' : World) : Prop where
  self : w'.self = w.self
  wf : w'.Wf
  entry : w'.entry w'.self UTEMP = some ⟨w.next, PTE_PUW⟩
  procs : ∀ e, e ≠ w.self → w'.procs e = w.procs e
  fate : ∀ k, w'.fate k = w.fate (k + 1)
  tables : w'.tables = w.tables

/-- Where there is memory, a page is allocated at `UTEMP`. -/
theorem allocTemp_eq (hw : w.Wf) (hmem : isError (w.fate 0) = false) :
  ∃ w', sysPageAlloc 0 UTEMP PTE_PUW w = .ok (0, w') ∧ TempPage w w'
    ∧ Room w' ((w.view w.self).on (fun a => PGNUM a ≠ PGNUM UTEMP)) UTEMP w.next
  := by
  obtain ⟨p, hp⟩ := hw.find_zero
  use w.asked.alloc w.self UTEMP PTE_PUW
  constructor
  · rw [sysPageAlloc_eq userPageAddr_UTEMP.1 proper_puw hp, if_neg (by rw [hmem]; decide),
      (key_self hw.self_ne).2]
  · constructor
    · constructor
      case self => rfl
      case wf => exact hw.asked.alloc _
      case entry => exact entry_setEntry hw.running rfl _
      case procs => exact fun e he => procs_setEntry_of_ne he _
      case fate => exact fun _ => rfl
      case tables => rfl
    · exact Room.alloc hw.asked (by decide) (by decide)

section Given

variable {child : Word} {c : Proc} (hw : w.Wf) (hchild : w.procs child = some c) (hzero : child ≠ 0)
include hw hchild hzero

/-- The page at `UTEMP` is given to the child. -/
theorem giveStack_eq {p : Nat} (hmem : isError (w.tables 0) = false)
    (hentry : w.entry w.self UTEMP = some ⟨p, PTE_PUW⟩) (initEsp : Word) :
  giveStack child initEsp w = .ok (.ok initEsp,
    (w.askedTable.setEntry child (USTACKTOP - PAGE) (some ⟨p, PTE_PUW⟩)).setEntry w.self UTEMP none)
  := by
  obtain ⟨q, hq⟩ := hw.find_zero
  have hkey := key_self hw.self_ne
  have hchildKey : w.key child = child := by rw [World.key, if_neg hzero]
  have hfind : w.find child = some c := by rw [World.find, hchildKey, hchild]
  have hwrite : ¬ (PTE_PUW &&& PTE_W ≠ 0 ∧ PTE_PUW &&& PTE_W = 0) := fun h => h.1 h.2
  have hmap : sysPageMap 0 UTEMP child (USTACKTOP - PAGE) PTE_PUW w
      = .ok (0, w.askedTable.setEntry child (USTACKTOP - PAGE) (some ⟨p, PTE_PUW⟩)) := by
    rw [sysPageMap_eq userPageAddr_UTEMP.1 userPageAddr_UTEMP.2 proper_puw hq hfind
      (by rw [hkey.2]; exact hentry) hwrite, if_neg (fun h => by rw [hmem] at h; cases h.1), hchildKey]
  obtain ⟨w1, hw1⟩ : ∃ w1, w1 = w.askedTable.setEntry child (USTACKTOP - PAGE) (some ⟨p, PTE_PUW⟩) :=
    ⟨_, rfl⟩
  have hself1 : w1.self = w.self := by
    rw [hw1]
    rfl
  have hrun1 : (w1.procs w1.self).isSome := by
    rw [hself1, hw1, isSome_setEntry]
    exact hw.running
  have hkey1 := key_self (w := w1) (by rw [hself1]; exact hw.self_ne)
  obtain ⟨q1, hq1⟩ := Option.isSome_iff_exists.mp hrun1
  have hunmap : sysPageUnmap 0 UTEMP w1 = .ok (0, w1.setEntry w.self UTEMP none) := by
    rw [sysPageUnmap_eq userPageAddr_UTEMP.1 (by rw [World.find, hkey1.2]; exact hq1), hkey1.2, hself1]
  rw [giveStack, bind_of_eq hmap, if_neg (by decide), ← hw1, bind_of_eq hunmap, if_neg (by decide)]
  rfl

/-- Where there is memory, the stack of the child is set up. -/
theorem fillStack_eq (hself : child ≠ w.self)
    (hargs : ((w.view w.self).on (fun a => PGNUM a ≠ PGNUM UTEMP)).Args argv args)
    (hfits : stackSize args ≤ PGSIZE) (hmem : isError (w.fate 0) = false)
    (htables : isError (w.tables 0) = false) :
  ∃ esp w', fillStack child argv args.length (UTEMP + PAGE - BitVec.ofNat 32 (stringSize args))
      (ROUNDDOWN (UTEMP + PAGE - BitVec.ofNat 32 (stringSize args)) 4
        - BitVec.ofNat 32 (4 * (args.length + 1))) w = .ok (.ok esp, w')
    ∧ w'.HoldsArgs child esp (args.map Prod.snd) ∧ w'.entry w'.self UTEMP = none
  := by
  obtain ⟨b, hb⟩ : ∃ b, b + stackSize args = PGSIZE := ⟨_, Nat.sub_add_cancel hfits⟩
  have hsize : stringSize args + 4 * (args.length + 1) + 8 ≤ stackSize args := by
    rw [stackSize]
    omega
  have hstore : ROUNDDOWN (UTEMP + PAGE - BitVec.ofNat 32 (stringSize args)) 4
      - BitVec.ofNat 32 (4 * (args.length + 1)) = off UTEMP (b + 8) := by
    rw [argvStore_eq hfits, ← hb, Nat.add_sub_cancel]
  have h8 : off UTEMP (b + 8) - 8 = off UTEMP b := by
    rw [← off_off, off]
    exact BitVec.add_sub_cancel _ _
  obtain ⟨w1, halloc, htemp, hroom⟩ := allocTemp_eq hw hmem
  have hchild1 : w1.procs child = some c := (htemp.procs child hself).trans hchild
  have hmem1 : isError (w1.tables 0) = false := by
    rw [htemp.tables]
    exact htables
  -- it is filled, and given to the child
  rw [hstore, fillStack, bind_of_eq halloc, if_neg (by decide), down_eq (by omega)]
  obtain ⟨m, hpage, -, heq⟩ := fillPage_eq hroom hargs hb
    (giveStack child (UTEMP2USTACK (off UTEMP (b + 8) - 8)))
  rw [heq, h8, utemp2ustack_eq,
    giveStack_eq (htemp.wf.setMem m) hchild1 hzero hmem1 htemp.entry (stackAddr b)]
  refine ⟨_, _, rfl, ?_, ?_⟩
  · apply StackPage.holdsArgs (p := w.next) hpage hb
    have hne : child ≠ (w1.setMem m).self := fun h => hself (h.trans htemp.self)
    rw [entry_setEntry_of_ne (fun h => (hne h).elim)]
    apply entry_setEntry _ rfl
    exact Option.isSome_iff_exists.mpr ⟨c, hchild1⟩
  · apply entry_setEntry _ rfl
    rw [isSome_setEntry]
    exact htemp.wf.running

end Given

/-! ### Pointers that go round -/

theorem countArgs_keeps (argv : Word) (n argc : Nat) (stringSize : Word) :
  Keeps OnlyMem (countArgs argv n argc stringSize)
  := by
  induction n generalizing argc stringSize with
  | zero => exact keeps_pure OnlyMem.composes _
  | succ n ih =>
      apply keeps_bind OnlyMem.composes (load32_keeps _)
      intro p
      apply keeps_ite _ (keeps_pure OnlyMem.composes _)
      apply keeps_bind OnlyMem.composes (strlen_keeps _)
      exact fun _ => ih _ _

theorem copyArgs_keeps (argv argvStore : Word) (n i : Nat) (stringStore : Word) :
  Keeps OnlyMem (copyArgs argv argvStore n i stringStore)
  := by
  induction n generalizing i stringStore with
  | zero => exact keeps_pure OnlyMem.composes _
  | succ n ih =>
      apply keeps_bind OnlyMem.composes (store32_keeps _ _)
      intro _
      apply keeps_bind OnlyMem.composes (load32_keeps _)
      intro _
      apply keeps_bind OnlyMem.composes (strcpy_keeps _ _)
      intro _
      apply keeps_bind OnlyMem.composes (load32_keeps _)
      intro _
      apply keeps_bind OnlyMem.composes (strlen_keeps _)
      exact fun _ => ih _ _

section Wild

variable {child : Word} {c : Proc} (hw : w.Wf) (hchild : w.procs child = some c) (hzero : child ≠ 0)
include hw hchild hzero

/-- Wherever the strings and pointers are stored: if there is memory, the stack is given to the
child, or the program does not go on. -/
theorem fillStack_wild (hself : child ≠ w.self) (hmem : isError (w.fate 0) = false)
    (htables : isError (w.tables 0) = false)
    (argc : Nat) (stringStore argvStore : Word) :
  (fillStack child argv argc stringStore argvStore).MayEnd w (fun r _ => ∃ esp, r = .ok esp)
    (fun _ => True)
  := by
  obtain ⟨w1, halloc, htemp, -⟩ := allocTemp_eq hw hmem
  have hchild1 : w1.procs child = some c := (htemp.procs child hself).trans hchild
  have hmem1 : isError (w1.tables 0) = false := by
    rw [htemp.tables]
    exact htables
  have hgive : ∀ {w2}, OnlyMem w1 w2 → ∀ initEsp,
      (giveStack child initEsp).MayEnd w2 (fun r _ => ∃ esp, r = .ok esp) (fun _ => True) := by
    rintro _ ⟨m, rfl⟩ initEsp
    rw [mayEnd_of_eq (giveStack_eq (htemp.wf.setMem m) hchild1 hzero hmem1 htemp.entry initEsp)]
    use initEsp
  rw [fillStack, mayEnd_bind, mayEnd_of_eq halloc, if_neg (by decide), mayEnd_bind]
  apply (copyArgs_keeps _ _ _ _ _ w1).mono _ (fun _ h => h.elim)
  intro stringStore' w2 h2
  rw [mayEnd_bind]
  apply ((store32_keeps _ _).after OnlyMem.composes h2).mono _ (fun _ h => h.elim)
  intro _ w3 h3
  rw [mayEnd_ite]
  refine ⟨fun _ => mayEnd_panic _, ?_⟩
  intro _
  rw [mayEnd_bind]
  apply ((store32_keeps _ _).after OnlyMem.composes h3).mono _ (fun _ h => h.elim)
  intro _ w4 h4
  rw [mayEnd_bind]
  apply ((store32_keeps _ _).after OnlyMem.composes h4).mono _ (fun _ h => h.elim)
  exact fun _ w5 h5 => hgive h5 _

end Wild

/-! ### When the stack is set up right -/

/-- The world with other answers of the rest of the system. -/
def World.fated (w : World) (fate tables : Nat → Word) : World :=
  { w with fate := fate, tables := tables }

theorem World.Wf.fated (h : w.Wf) (fate tables : Nat → Word) :
  (w.fated fate tables).Wf
  := ⟨h.self_ne, h.running, h.fresh⟩

/-- The arguments are refused as they should be, or fit on a page and do not lie in the page at
`UTEMP`, which is replaced while they are read. -/
def ArgsInOrder (w : World) (argv : Word) (args : List (Word × List Byte)) : Prop :=
  NoWrap args ∧ (stackSize args ≤ PGSIZE →
    ((w.view w.self).on (fun a => PGNUM a ≠ PGNUM UTEMP)).Args argv args)

section Right

variable {child : Word} {c : Proc} (hw : w.Wf) (hchild : w.procs child = some c)
  (hzero : child ≠ 0) (hself : child ≠ w.self) (hargs : (w.view w.self).Args argv args)
include hw hchild hzero hself hargs

/-- If all requests are granted, arguments that do not fit are refused only if the pointer does not
go round. -/
theorem noWrap_of_right (hright : InitStackRight (w.fated (fun _ => 0) (fun _ => 0)) child argv args) :
  NoWrap args
  := by
  have hargs' : ((w.fated (fun _ => 0) (fun _ => 0)).view (w.fated (fun _ => 0) (fun _ => 0)).self).Args argv args :=
    hargs
  by_contra hwrap
  have hbig : PGSIZE < stackSize args := by
    by_contra hsmall
    exact hwrap (Or.inl (Nat.le_of_not_lt hsmall))
  have hrun := hright.1 hbig
  rw [(initStack_eq hargs').2 (fun h => hwrap h.2)] at hrun
  obtain ⟨esp, hesp⟩ :=
    (fillStack_wild (hw.fated (fun _ => 0) (fun _ => 0)) hchild hzero hself rfl rfl _ _ _).of_eq hrun
  cases hesp

end Right

/-! ### A short string and a long one -/

/-- A world with two environments, the caller and its child, which maps nothing. -/
def twoProcs (maps : Nat → Option Mapped) (mem : Memory) (next : Nat) : World where
  self := 1
  procs := fun e => if e = 1 then some { maps := maps } else if e = 2 then some {} else none
  mem := mem
  next := next
  fate := fun _ => 0
  tables := fun _ => 0
  disk := fun _ => .ofData [] (Nat.two_pow_pos 31)
  files := fun _ => none

theorem twoProcs_entry {maps : Nat → Option Mapped} {mem : Memory} {next : Nat} (va : Word) :
  (twoProcs maps mem next).entry 1 va = maps (PGNUM va)
  := rfl

theorem twoProcs_wf {maps : Nat → Option Mapped} {mem : Memory} {next : Nat}
    (h : ∀ n m, maps n = some m → m.page < next) :
  (twoProcs maps mem next).Wf
  := by
  constructor
  case self_ne => exact (by decide : (1 : Word) ≠ 0)
  case running => rfl
  case fresh =>
    intro e va m hm
    rw [World.entry, twoProcs] at hm
    simp only at hm
    split at hm
    case isTrue => exact h _ _ hm
    case isFalse =>
      split at hm
      case isTrue => cases hm
      case isFalse => cases hm

/-- A caller with one page, which holds the argument vector of the string `"a"`. -/
def shortWorld : World :=
  twoProcs (fun n => if n = 1 then some ⟨0, PTE_PUW⟩ else none)
    (fun x => if x = 0 ∨ x = 1 then 0x10 else if x = 16 then 0x61 else 0) 1

/-- A string of 4198387 bytes needs 4194308 bytes more than a page. -/
def longString : List Byte :=
  List.replicate 4198387 1

/-- A caller with that string from the address `0x800000` on: the pages it spans are one page of
ones, mapped many times, and a page at the end. The argument vector lies at `0x1000`. -/
def longWorld : World :=
  twoProcs
    (fun n => if n = 1 then some ⟨2, PTE_PUW⟩
      else if 2048 ≤ n ∧ n < 3072 then some ⟨0, PTE_PUW⟩
      else if n = 3072 then some ⟨1, PTE_PUW⟩
      else none)
    (fun x => if x < 8179 then 1 else if x = 8194 then 0x80 else 0) 3

/-- What the caller reads in the pages of the string. -/
theorem longWorld_view {i : Nat} (hi : i < 1025 * 4096) :
  ((longWorld.view longWorld.self).on (fun a => PGNUM a ≠ PGNUM UTEMP)) (off 0x800000 i)
    = some (if i < 4198387 then 1 else 0)
  := by
  have hstart : (0x800000 : Word).toNat = 8388608 := rfl
  have hnum : PGNUM (off 0x800000 i) = 2048 + i / 4096 := by
    rw [PGNUM_eq, off_toNat, hstart]
    omega
  have hoff : PGOFF (off 0x800000 i) = i % 4096 := by
    rw [PGOFF_eq, off_toNat, hstart]
    omega
  have htemp : PGNUM UTEMP = 1024 := by decide
  have hread : PTE_PUW &&& PTE_U = PTE_U := by decide
  rw [on, if_pos (by rw [hnum, htemp]; omega), view_eq_some]
  by_cases hlast : i / 4096 = 1024
  · refine ⟨1 * PGSIZE + i % 4096, ?_, ?_⟩
    · rw [translate_eq_some]
      refine ⟨⟨1, PTE_PUW⟩, ?_, hread, by rw [hoff]⟩
      change longWorld.entry 1 _ = _
      rw [longWorld, twoProcs_entry, hnum, if_neg (by omega), if_neg (by omega), if_pos (by omega)]
    · change (if 4096 + i % 4096 < 8179 then (1 : Byte)
        else if 4096 + i % 4096 = 8194 then 0x80 else 0) = _
      by_cases hone : i < 4198387
      · have hlow : 4096 + i % 4096 < 8179 := by omega
        rw [if_pos hlow, if_pos hone]
      · have hhigh : ¬ 4096 + i % 4096 < 8179 := by omega
        have hne : ¬ 4096 + i % 4096 = 8194 := by omega
        rw [if_neg hhigh, if_neg hne, if_neg hone]
  · refine ⟨0 * PGSIZE + i % 4096, ?_, ?_⟩
    · rw [translate_eq_some]
      refine ⟨⟨0, PTE_PUW⟩, ?_, hread, by rw [hoff]⟩
      change longWorld.entry 1 _ = _
      rw [longWorld, twoProcs_entry, hnum, if_neg (by omega), if_pos (by omega)]
    · change (if 0 * PGSIZE + i % 4096 < 8179 then (1 : Byte) else _) = _
      have hlow : 0 * PGSIZE + i % 4096 < 8179 := by omega
      have hone : i < 4198387 := by omega
      rw [if_pos hlow, if_pos hone]

end User

end Jos
