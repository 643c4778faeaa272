import Jos.Kern.Elf
import Jos.Lib.EndsOr
import Jos.User.Fd

/-!
# Starting a program

`spawn` of `lib/spawn.c` opens the file of a program, reads the first 512 bytes of it, creates an
environment, sets up its stack and maps the segments the program headers describe.  A guest is
loaded the same way by `copy_kernel` of `user/vm.c`.

Both read the headers through pointers into a buffer on their stack.  How they read a field is
an argument here, so that reading memory may be compared with reading the buffer only.
-/

namespace Jos

namespace User

open Bytes Prog View

def ELF_PROG_FLAG_WRITE : Word := 2
def E_NOT_FOUND : Word := 11
def E_NOT_EXEC : Word := 14
def ENV_RUNNABLE : Word := 2

/-! ### Reading the headers -/

/-- How the byte `k` of the structure of `size` bytes at `a` is read. -/
abbrev Reader := (a : Word) → (size k : Nat) → Prog World Byte

namespace Reader

variable (peek : Reader)

/-- Read the half word at the offset `k` of a structure. -/
def field16 (a : Word) (size k : Nat) : Prog World (BitVec 16) := do
  let b0 ← peek a size k
  let b1 ← peek a size (k + 1)
  pure (b1 ++ b0)

/-- Read the word at the offset `k` of a structure. -/
def field32 (a : Word) (size k : Nat) : Prog World Word := do
  let b0 ← peek a size k
  let b1 ← peek a size (k + 1)
  let b2 ← peek a size (k + 2)
  let b3 ← peek a size (k + 3)
  pure (b3 ++ b2 ++ b1 ++ b0)

/-- Read a field of a `struct Elf`. -/
def elf32 (elf : Word) (k : Nat) : Prog World Word :=
  peek.field32 elf 52 k

/-- Read a field of a `struct Proghdr`. -/
def ph32 (ph : Word) (k : Nat) : Prog World Word :=
  peek.field32 ph 32 k

end Reader

section Keeps

variable {R : World → World → Prop} (hR : Composes R) {peek : Reader}
  (hpeek : ∀ a size k, Keeps R (peek a size k))
include hR hpeek

theorem field32_keeps (a : Word) (size k : Nat) :
  Keeps R (peek.field32 a size k)
  := by
  apply keeps_bind hR (hpeek _ _ _)
  intro _
  apply keeps_bind hR (hpeek _ _ _)
  intro _
  apply keeps_bind hR (hpeek _ _ _)
  intro _
  apply keeps_bind hR (hpeek _ _ _)
  exact fun _ => keeps_pure hR _

theorem field16_keeps (a : Word) (size k : Nat) :
  Keeps R (peek.field16 a size k)
  := by
  apply keeps_bind hR (hpeek _ _ _)
  intro _
  apply keeps_bind hR (hpeek _ _ _)
  exact fun _ => keeps_pure hR _

end Keeps

/-- Read the memory of the program. -/
def memory : Reader := fun a _ k => load (off a k)

/-- The size of the buffer for the headers. -/
def HEADER : Nat := 512

/-- Read structures in the buffer at `buf`, and nothing else. -/
def within (buf : Word) : Reader := fun a size k =>
  if (a - buf).toNat + size ≤ HEADER then memory a size k
  else Prog.panic "read outside the buffer"

/-! ### Mapping a segment -/

/-- The calls at which `spawn` gives up. -/
inductive Place where
  | open
  | header
  | sysExofork
  | initStack
  | sysPageAlloc
  | seek
  | readn
  deriving DecidableEq

/-- How `spawn` fails: where, and with which error. -/
structure Failure where
  place : Place
  code : Word
  deriving DecidableEq

/-- The smaller of two sizes. -/
def MIN (a b : Word) : Word :=
  if a.toNat ≤ b.toNat then a else b

/-- Read a page of the file, from the `i`-th byte of the segment on, to a new page at `UTEMP`. -/
def readPage (fd filesz fileoffset i : Word) : Prog World (Option Failure) := do
  let r ← sysPageAlloc 0 UTEMP PTE_PUW
  if isError r then
    pure (some ⟨.sysPageAlloc, r⟩)
  else
    let r ← seek fd (fileoffset + i)
    if isError r then
      pure (some ⟨.seek, r⟩)
    else
      let r ← readn fd UTEMP (MIN PAGE (filesz - i))
      if isError r then
        pure (some ⟨.readn, r⟩)
      else
        pure none

/-- Map the page `i` bytes behind `va`, in the environment `dst`: a page of the file, or a blank page
where the file part of the segment has ended. `msg` is said if a page that was read is not
mapped. -/
def mapPage (msg : String) (dst va fd filesz fileoffset perm i : Word) :
    Prog World (Option Failure) := do
  if i.toNat ≥ filesz.toNat then
    let r ← sysPageAlloc dst (va + i) perm
    pure (if isError r then some ⟨.sysPageAlloc, r⟩ else none)
  else
    let r ← readPage fd filesz fileoffset i
    match r with
    | some f => pure (some f)
    | none =>
        let r ← sysPageMap 0 UTEMP dst (va + i) perm
        if isError r then
          Prog.panic msg
        else
          let _ ← sysPageUnmap 0 UTEMP
          pure none

/-- Map the pages of a segment from `i` on. After as many rounds as there are pages the loop would
start over, and go on for ever. -/
def mapPages (msg : String) (dst va memsz fd filesz fileoffset perm : Word) :
    Nat → Word → Prog World (Option Failure)
  | 0, _ => Prog.leave
  | n + 1, i => do
      if i.toNat < memsz.toNat then
        let r ← mapPage msg dst va fd filesz fileoffset perm i
        match r with
        | some f => pure (some f)
        | none => mapPages msg dst va memsz fd filesz fileoffset perm n (i + PAGE)
      else
        pure none

/-- The number of pages there are. -/
def PAGES : Nat := 2 ^ 20

/-- Map a segment in the environment `child`. One that does not start at a page boundary is
taken to start at the one below. -/
def mapSegment (child va memsz fd filesz fileoffset perm : Word) : Prog World (Option Failure) :=
  let i := BitVec.ofNat 32 (PGOFF va)
  mapPages "spawn: sys_page_map data: %e" child (va - i) (memsz + i) fd (filesz + i)
    (fileoffset - i) perm (PAGES + 1) 0

/-! ### Spawning -/

/-- The permissions of a segment with the flags `flags`. -/
def segmentPerm (flags : Word) : Word :=
  if flags &&& ELF_PROG_FLAG_WRITE ≠ 0 then PTE_P ||| PTE_U ||| PTE_W else PTE_P ||| PTE_U

/-- Map the segments of the `n` program headers from `ph` on in the environment `child`. -/
def mapSegments (peek : Reader) (child fd : Word) : Nat → Word → Prog World (Option Failure)
  | 0, _ => pure none
  | n + 1, ph => do
      let type ← peek.ph32 ph 0
      if type ≠ ELF_PROG_LOAD then
        mapSegments peek child fd n (off ph 32)
      else
        let flags ← peek.ph32 ph 24
        let va ← peek.ph32 ph 8
        let memsz ← peek.ph32 ph 20
        let filesz ← peek.ph32 ph 16
        let offset ← peek.ph32 ph 4
        let r ← mapSegment child va memsz fd filesz offset (segmentPerm flags)
        match r with
        | some f => pure (some f)
        | none => mapSegments peek child fd n (off ph 32)

/-- Has the header at `buf` been read, and is it one of a program? -/
def readHeader (peek : Reader) (fd buf : Word) : Prog World Bool := do
  let n ← readn fd buf (BitVec.ofNat 32 HEADER)
  if n ≠ BitVec.ofNat 32 HEADER then
    pure false
  else
    let magic ← peek.elf32 buf 0
    pure (magic = ELF_MAGIC)

/-- What is left to do when the child has been created. -/
def spawnChild (peek : Reader) (elfBuf argv fd child : Word) : Prog World (Except Failure Word) := do
  let w ← get
  let entry ← peek.elf32 elfBuf 24
  let childTf := { ((w.procs child).getD {}).tf with tfEip := entry }
  let r ← initStack child argv
  match r with
  | .error r => pure (.error ⟨.initStack, r⟩)
  | .ok initEsp =>
      let childTf := { childTf with tfEsp := initEsp }
      let phoff ← peek.elf32 elfBuf 28
      let phnum ← peek.field16 elfBuf 52 44
      let r ← mapSegments peek child fd phnum.toNat (elfBuf + phoff)
      match r with
      | some f =>
          let _ ← sysEnvDestroy child
          let _ ← close fd
          pure (.error f)
      | none =>
          let _ ← close fd
          let r ← sysEnvSetTrapframe child childTf
          if isError r then
            Prog.panic "sys_env_set_trapframe: %e"
          else
            let r ← sysEnvSetStatus child ENV_RUNNABLE
            if isError r then
              Prog.panic "sys_env_set_status: %e"
            else
              pure (.ok child)

/-- Start the program with the path at `prog` and the arguments `argv`. The headers are read to the
buffer `elfBuf` on the stack. -/
def spawn (peek : Reader) (elfBuf prog argv : Word) : Prog World (Except Failure Word) := do
  let r ← openFile prog
  match r with
  | .error r => pure (.error ⟨.open, r⟩)
  | .ok fd =>
      let header ← readHeader peek fd elfBuf
      if ¬ header then
        let _ ← close fd
        pure (.error ⟨.header, -E_NOT_EXEC⟩)
      else
        let child ← sysExofork
        if isError child then
          pure (.error ⟨.sysExofork, child⟩)
        else
          spawnChild peek elfBuf argv fd child

/-! ### Loading a guest -/

/-- Map a segment in the guest, for reading and writing. -/
def mapGuest (guest guestpa memsz fd filesz fileoffset : Word) : Prog World Word := do
  let r ← mapPages "in vm.c in map guest" guest guestpa memsz fd filesz fileoffset PTE_PUW
    (PAGES + 1) 0
  match r with
  | some f => pure f.code
  | none => pure 0

/-- Map the segments of the program headers from `ph` up to `eph` in the guest. There are `n`
headers at most before the end of memory. -/
def mapKernel (peek : Reader) (guest fd eph : Word) : Nat → Word → Word → Prog World Word
  | 0, _, _ => Prog.leave
  | n + 1, ph, r => do
      if ph.toNat < eph.toNat then
        let type ← peek.ph32 ph 0
        if type = ELF_PROG_LOAD then
          let pa ← peek.ph32 ph 12
          let memsz ← peek.ph32 ph 20
          let filesz ← peek.ph32 ph 16
          let offset ← peek.ph32 ph 4
          let r ← mapGuest guest pa memsz fd filesz offset
          if isError r then
            let _ ← close fd
            pure (-2)
          else
            mapKernel peek guest fd eph n (off ph 32) r
        else
          mapKernel peek guest fd eph n (off ph 32) r
      else
        let _ ← close fd
        pure r

/-- Load the file with the path at `filname` into the guest. The headers are read to the buffer
`data` on the stack. -/
def copyKernel (peek : Reader) (data guest filname : Word) : Prog World Word := do
  let r ← openFile filname
  match r with
  | .error _ => pure (-E_NOT_FOUND)
  | .ok fd =>
      let t ← readn fd data (BitVec.ofNat 32 HEADER)
      if t ≠ BitVec.ofNat 32 HEADER then
        let _ ← close fd
        pure (-E_NOT_FOUND)
      else
        let magic ← peek.elf32 data 0
        if magic ≠ ELF_MAGIC then
          let _ ← close fd
          pure (-E_NOT_EXEC)
        else
          let phoff ← peek.elf32 data 28
          let phnum ← peek.field16 data 52 44
          let ph := data + phoff
          mapKernel peek guest fd (off ph (32 * phnum.toNat)) (phnum.toNat + 1) ph 0

end User

end Jos
