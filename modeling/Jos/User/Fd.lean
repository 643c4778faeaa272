import Jos.User.InitStack

/-!
# File descriptors

`lib/fd.c` keeps the descriptors of a program in pages at fixed addresses: the descriptor `n` is
open if its page is mapped.  The page of an open file is shared with the file server, which
reads the position from it.  `lib/file.c` sends the requests; a request is a page that is
passed along, here its contents, and is answered by `fs/serv.c`.

Only what a program does that reads files is here: `open` with `O_RDONLY`, `read`, `readn`, `seek`
and `close`.
-/

namespace Jos

namespace User

open Bytes Prog View

def MAXFD : Nat := 32
def FDTABLE : Nat := 0xD0000000
def MAXPATHLEN : Nat := 1024
def O_ACCMODE : Word := 3
def O_WRONLY : Word := 1
def E_MAX_OPEN : Word := 10
def E_BAD_PATH : Word := 12

/-- The device of files, `'f'`. -/
def DEV_FILE : Word := 0x66

/-! ### The file server -/

/-- The page of a `struct Fd` that was just opened for reading: the device, the position `0`,
the mode `O_RDONLY` and the file. -/
def fdPage (m : Memory) (q : Nat) (fileid : Word) : Memory :=
  write32 (write32 (fill m (q * PGSIZE) PGSIZE 0) (q * PGSIZE) DEV_FILE) (q * PGSIZE + 12) fileid

/-- Open the file `path` for reading. The answer of the rest of the system is the identifier under
which it is opened, and the result the page of its `struct Fd`. -/
def serveOpen (path : List Byte) : Prog World (Except Word Nat) := do
  let a ← request
  let w ← get
  if isError a then
    pure (.error a)
  else if (w.files a).isSome then
    pure (.error (-E_MAX_OPEN))
  else
    set { w.setMem (fdPage w.mem w.next a) with
      next := w.next + 1
      files := Function.update w.files a (some (w.disk path, w.next)) }
    pure (.ok w.next)

/-- What `file_read` returns: an error, or the number of bytes that were read. -/
def nbytes : Except Word (List Byte) → Word
  | .error e => e
  | .ok bs => BitVec.ofNat 32 bs.length

/-- Read at most `n` bytes at the position of a file. The position moves on by the result, even if
that is an error. -/
def serveRead (fileid n : Word) : Prog World (Except Word (List Byte)) := do
  let a ← request
  let w ← get
  if isError a then
    pure (.error a)
  else
    match w.files fileid with
    | none => pure (.error (-E_INVAL))
    | some (f, q) =>
        let offset := read32 w.mem (q * PGSIZE + 4)
        let r := f.read offset (min n.toNat PGSIZE)
        set (w.setMem (write32 w.mem (q * PGSIZE + 4) (offset + nbytes r)))
        pure r

/-- Write a file to disk. -/
def serveFlush (fileid : Word) : Prog World Word := do
  let a ← request
  let w ← get
  if isError a then
    pure a
  else if (w.files fileid).isNone then
    pure (-E_INVAL)
  else
    pure 0

/-- Send a request to the file server. It is mapped there, which may take a page table. -/
def fsipc {α : Type} (serve : Prog World α) : Prog World α := do
  let t ← requestTable
  if isError t then
    Prog.panic "ipc_send: error %e"
  else
    serve

/-! ### The source -/

/-- The address of the `struct Fd` of the descriptor `i`. -/
def INDEX2FD (i : Word) : Word :=
  BitVec.ofNat 32 FDTABLE + i * PAGE

/-- The descriptor with the `struct Fd` at `fd`. -/
def fd2num (fd : Word) : Word :=
  (fd - BitVec.ofNat 32 FDTABLE) / PAGE

/-- Is the page at `va` mapped? -/
def mapped (va : Word) : Prog World Bool := do
  let w ← get
  pure (w.entry w.self va).isSome

/-- Find the `struct Fd` of the smallest descriptor that is not open. -/
def fdAlloc : Prog World (Except Word Word) := do
  let fd ← Prog.findUp 0 MAXFD (fun i => do
    let fd := INDEX2FD (BitVec.ofNat 32 i)
    let m ← mapped fd
    pure (if m then none else some fd))
  match fd with
  | some fd => pure (.ok fd)
  | none => pure (.error (-E_MAX_OPEN))

/-- The `struct Fd` of the descriptor `fdnum`, if that is open. -/
def fdLookup (fdnum : Word) : Prog World (Except Word Word) := do
  if fdnum.slt 0 ∨ ¬ fdnum.slt (BitVec.ofNat 32 MAXFD) then
    pure (.error (-E_INVAL))
  else
    let fd := INDEX2FD fdnum
    let m ← mapped fd
    pure (if m then .ok fd else .error (-E_INVAL))

/-- The devices: files only. -/
def devtab : List Word := [DEV_FILE]

/-- Is there a device with the identifier `devId`? -/
def devLookup (devId : Word) : Word :=
  if devId ∈ devtab then 0 else -E_INVAL

/-- Have the file of a descriptor written to disk. -/
def devfileFlush (fd : Word) : Prog World Word := do
  let fileid ← load32 (off fd 12)
  fsipc (serveFlush fileid)

/-- Copy the bytes `bs` to `dst`. -/
def memmove (dst : Word) : List Byte → Prog World Unit
  | [] => pure ()
  | b :: bs => do
      store dst b
      memmove (off dst 1) bs

/-- Read at most `n` bytes of the file of a descriptor. -/
def devfileRead (fd buf n : Word) : Prog World Word := do
  let fileid ← load32 (off fd 12)
  let r ← fsipc (serveRead fileid n)
  match r with
  | .error e => pure e
  | .ok bs =>
      memmove buf bs
      pure (nbytes r)

/-- Close the file of a descriptor, if the lookup of its device gave no error. -/
def devClose (fd r : Word) : Prog World Word := do
  if isError r then
    pure r
  else
    devfileFlush fd

/-- Close a descriptor, and unmap its `struct Fd`. One that is not open is an error if it
has to be. -/
def fdClose (fd : Word) (mustExist : Bool) : Prog World Word := do
  let r ← fdLookup (fd2num fd)
  match r with
  | .error r => pure (if mustExist then r else 0)
  | .ok fd2 =>
      if fd ≠ fd2 then
        pure 0
      else
        let devId ← load32 fd
        let r ← devClose fd (devLookup devId)
        let _ ← sysPageUnmap 0 fd
        pure r

/-- Close the descriptor `fdnum`. -/
def close (fdnum : Word) : Prog World Word := do
  let r ← fdLookup fdnum
  match r with
  | .error r => pure r
  | .ok fd => fdClose fd true

/-- Read at most `n` bytes at the position of the descriptor `fdnum`. -/
def read (fdnum buf n : Word) : Prog World Word := do
  let r ← fdLookup fdnum
  match r with
  | .error r => pure r
  | .ok fd =>
      let devId ← load32 fd
      let r := devLookup devId
      if isError r then
        pure r
      else
        let omode ← load32 (off fd 8)
        if omode &&& O_ACCMODE = O_WRONLY then
          pure (-E_INVAL)
        else
          devfileRead fd buf n

/-- Read on until there are `n` bytes, `tot` of which are there, or the file ends. Every round reads
a byte at least, so that the given number of rounds is not used up. -/
def readnFrom (fdnum buf n : Word) : Nat → Word → Prog World Word
  | 0, _ => Prog.leave
  | k + 1, tot =>
      if tot.toNat < n.toNat then do
        let m ← read fdnum (buf + tot) (n - tot)
        if isError m then
          pure m
        else if m = 0 then
          pure tot
        else
          readnFrom fdnum buf n k (tot + m)
      else
        pure tot

/-- Read `n` bytes, if there are so many. -/
def readn (fdnum buf n : Word) : Prog World Word :=
  readnFrom fdnum buf n (n.toNat + 1) 0

/-- Set the position of the descriptor `fdnum`. -/
def seek (fdnum offset : Word) : Prog World Word := do
  let r ← fdLookup fdnum
  match r with
  | .error r => pure r
  | .ok fd =>
      store32 (off fd 4) offset
      pure 0

/-- The `n` bytes from `a` on. -/
def loadBytes (a : Word) : Nat → Prog World (List Byte)
  | 0 => pure []
  | n + 1 => do
      let b ← load a
      let bs ← loadBytes (off a 1) n
      pure (b :: bs)

/-- Open the file with the path at `path` for reading. The file server passes the page of the
`struct Fd`, and goes no further if there is no memory to map it. -/
def openFile (path : Word) : Prog World (Except Word Word) := do
  let len ← strlen path
  if len.toNat ≥ MAXPATHLEN then
    pure (.error (-E_BAD_PATH))
  else
    let r ← fdAlloc
    match r with
    | .error r => pure (.error r)
    | .ok fd =>
        let name ← loadBytes path len.toNat
        let r ← fsipc (serveOpen name)
        match r with
        | .error r =>
            let _ ← fdClose fd false
            pure (.error r)
        | .ok q =>
            let t ← requestTable
            if isError t then
              Prog.leave
            else
              modify (fun w => w.setEntry w.self fd (some ⟨q, PTE_PUW⟩))
              pure (.ok (fd2num fd))

/-! ### Descriptors and their addresses -/

/-- The address of the `struct Fd` of the descriptor `i`. -/
abbrev fdAddr (i : Nat) : Word := INDEX2FD (BitVec.ofNat 32 i)

variable {w : World} {i : Nat}

theorem fdAddr_toNat (hi : i < MAXFD) :
  (fdAddr i).toNat = FDTABLE + i * PGSIZE
  := by
  have hlt : i < 32 := hi
  have hpage : (BitVec.ofNat 32 i * PAGE).toNat = i * 4096 := by
    rw [BitVec.toNat_mul, BitVec.toNat_ofNat, PAGE, BitVec.toNat_ofNat]
    simp only [PGSIZE]
    omega
  rw [fdAddr, INDEX2FD, BitVec.toNat_add, hpage, BitVec.toNat_ofNat]
  simp only [FDTABLE, PGSIZE]
  omega

theorem userPageAddr_fdAddr (hi : i < MAXFD) :
  UserPageAddr (fdAddr i)
  := by
  have hlt : i < 32 := hi
  have htop : UTOP = 4005560320 := rfl
  rw [UserPageAddr, fdAddr_toNat hi, htop]
  simp only [FDTABLE, PGSIZE]
  omega

/-- No descriptor lies at `UTEMP`. -/
theorem PGNUM_fdAddr_ne (hi : i < MAXFD) :
  PGNUM (fdAddr i) ≠ PGNUM UTEMP
  := by
  have htemp : PGNUM UTEMP = 1024 := by decide
  rw [PGNUM_eq, fdAddr_toNat hi, htemp]
  simp only [FDTABLE, PGSIZE]
  omega

theorem fd2num_fdAddr (hi : i < MAXFD) :
  fd2num (fdAddr i) = BitVec.ofNat 32 i
  := by
  have hlt : i < 32 := hi
  apply BitVec.eq_of_toNat_eq
  have hpage : PAGE.toNat = 4096 := by decide
  rw [fd2num, BitVec.toNat_udiv, BitVec.toNat_sub, fdAddr_toNat hi, BitVec.toNat_ofNat,
    BitVec.toNat_ofNat, hpage]
  simp only [FDTABLE, PGSIZE]
  omega

/-- The numbers of descriptors pass the checks for their range. -/
theorem fdnum_ok (hi : i < MAXFD) :
  ¬ ((BitVec.ofNat 32 i).slt 0 ∨ ¬ (BitVec.ofNat 32 i).slt (BitVec.ofNat 32 MAXFD))
  := by
  have hlt : i < 32 := hi
  have hint : (BitVec.ofNat 32 i).toInt = i := by
    rw [BitVec.toInt_eq_toNat_of_lt, BitVec.toNat_ofNat, Nat.mod_eq_of_lt (by omega)]
    rw [BitVec.toNat_ofNat, Nat.mod_eq_of_lt (by omega)]
    omega
  have hmax : (BitVec.ofNat 32 MAXFD).toInt = 32 := by decide
  have hzero : (0 : Word).toInt = 0 := by decide
  rw [BitVec.slt, BitVec.slt, hint, hmax, hzero]
  simp only [decide_eq_true_eq]
  omega

theorem mapped_eq (va : Word) :
  mapped va w = .ok ((w.entry w.self va).isSome, w)
  := rfl

theorem fdLookup_eq (hi : i < MAXFD) :
  fdLookup (BitVec.ofNat 32 i) w
    = .ok (if (w.entry w.self (fdAddr i)).isSome then .ok (fdAddr i) else .error (-E_INVAL), w)
  := by
  rw [fdLookup, if_neg (fdnum_ok hi)]
  rfl

/-- `fd_alloc` finds a descriptor that is not open, if there is one, and changes nothing. -/
theorem fdAlloc_cases (w : World) :
  ((∀ i < MAXFD, (w.entry w.self (fdAddr i)).isSome)
    ∧ fdAlloc w = .ok (.error (-E_MAX_OPEN), w)) ∨
  ∃ i < MAXFD, w.entry w.self (fdAddr i) = none ∧ fdAlloc w = .ok (.ok (fdAddr i), w)
  := by
  have hbody : ∀ i, (mapped (fdAddr i) >>= fun m =>
      (pure (if m then none else some (fdAddr i)) : Prog World (Option Word))) w
      = .ok (if (w.entry w.self (fdAddr i)).isSome then none else some (fdAddr i), w) := fun _ => rfl
  obtain ⟨hall, heq⟩ | ⟨i, -, hi, -, hne, hend, -⟩ :=
    findUp_cases (fun i => mapped (fdAddr i) >>= fun m =>
      (pure (if m then none else some (fdAddr i)) : Prog World (Option Word))) w 0 MAXFD
  · left
    constructor
    · intro i hi
      by_contra hno
      have hnone := hall i (Nat.zero_le i) (by omega)
      rw [hbody, if_neg hno] at hnone
      cases hnone
    · rw [fdAlloc, bind_of_eq heq]
      rfl
  · right
    rw [Nat.zero_add] at hi
    cases hm : w.entry w.self (fdAddr i) with
    | some m =>
        rw [hbody, hm, Option.isSome_some, if_pos rfl] at hne
        exact (hne rfl).elim
    | none =>
        use i, hi, hm
        rw [fdAlloc, bind_of_eq (hend (fdAddr i) w (by rw [hbody, hm]; rfl))]
        rfl

end User

end Jos
