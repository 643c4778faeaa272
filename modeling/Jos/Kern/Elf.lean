import Jos.Lib.Bytes

/-!
# ELF images

The parts of `inc/elf.h` that loaders look at: the entry point and the program headers of an
image, read from the bytes of its file.
-/

namespace Jos

open Bytes

def ELF_MAGIC : Word := 0x464C457F
def ELF_PROG_LOAD : Word := 1

/-- The bytes of an image. Those behind its end are arbitrary. -/
abbrev Binary := Nat → Byte

namespace Binary

variable (b : Binary)

def eMagic : Word := read32 b 0
def eEntry : Word := read32 b 24
def ePhoff : Word := read32 b 28
def ePhnum : Nat := (b 45 ++ b 44 : BitVec 16).toNat

/-- Where the `i`-th program header is. -/
def phdr (i : Nat) : Nat :=
  b.ePhoff.toNat + 32 * i

def pType (i : Nat) : Word := read32 b (b.phdr i)
def pOffset (i : Nat) : Word := read32 b (b.phdr i + 4)
def pVa (i : Nat) : Word := read32 b (b.phdr i + 8)
def pPa (i : Nat) : Word := read32 b (b.phdr i + 12)
def pFilesz (i : Nat) : Word := read32 b (b.phdr i + 16)
def pMemsz (i : Nat) : Word := read32 b (b.phdr i + 20)
def pFlags (i : Nat) : Word := read32 b (b.phdr i + 24)

end Binary

end Jos
