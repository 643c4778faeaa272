import Jos.Lib.Io

/-!
# The disk format

The constants of `inc/fs.h`, `fs/fs.h` and `inc/error.h`, and where the fields of the
structures on the disk lie.  The file server maps block `n` of the disk at
`DISKMAP + n * BLKSIZE`; addresses are counted from `DISKMAP` on, and a `struct File *` is
the address of the structure.
-/

namespace Jos.Fs

open Bytes

/-! ### Constants -/

/-- Bytes per file system block. -/
def BLKSIZE : Nat := 4096
/-- Blocks whose bits fit in one block of the bitmap. -/
def BLKBITSIZE : Nat := BLKSIZE * 8
def MAXNAMELEN : Nat := 128
def MAXPATHLEN : Nat := 1024
def NDIRECT : Nat := 10
def NINDIRECT : Nat := BLKSIZE / 4
def MAXFILESIZE : Nat := (NDIRECT + NINDIRECT) * BLKSIZE
/-- The size of a `struct File`. -/
def FILESIZE : Nat := 256
def BLKFILES : Nat := BLKSIZE / FILESIZE
def DISKSIZE : Nat := 0xC0000000
def FTYPE_REG : Word := 0
def FTYPE_DIR : Word := 1

def E_INVAL : Word := 3
def E_NO_DISK : Word := 9
def E_MAX_OPEN : Word := 10
def E_NOT_FOUND : Word := 11
def E_BAD_PATH : Word := 12
def E_FILE_EXISTS : Word := 13

/-- The character `/`. -/
def SLASH : Byte := 0x2f

/-! ### Fields -/

/-- The super block. -/
def super : Nat := 1 * BLKSIZE
/-- The first block of the bitmap. -/
def bitmap : Nat := 2 * BLKSIZE
def s_nblocks : Nat := super + 4
def s_root : Nat := super + 8

def f_name (f : Nat) : Nat := f
def f_size (f : Nat) : Nat := f + 128
def f_type (f : Nat) : Nat := f + 132
def f_direct (f i : Nat) : Nat := f + 136 + 4 * i
def f_indirect (f : Nat) : Nat := f + 176

/-- The word of the bitmap that holds the bit of block `b`. -/
def bitmapWord (b : Nat) : Nat := bitmap + 4 * (b / 32)

/-- The bit of block `b` in its word. -/
def bitmapMask (b : Nat) : Word := 1#32 <<< (b % 32)

/-! ### What a memory says -/

/-- The number of blocks on the disk. -/
def nblocks (m : Memory) : Nat := (read32 m s_nblocks).toNat

/-- Whether block `b` exists and its bit in the bitmap is set. -/
def isFree (m : Memory) (b : Nat) : Bool :=
  decide (b < nblocks m) && (read32 m (bitmapWord b) &&& bitmapMask b != 0)

/-- Block `b` exists and its bit is not set. -/
def inUse (m : Memory) (b : Nat) : Bool :=
  decide (b < nblocks m) && !isFree m b

/-- Whether the block cache hands out address `a`: its block is in use, and so is the block
of the bitmap that says so. -/
def valid (m : Memory) (a : Nat) : Bool :=
  decide (a < DISKSIZE) && inUse m (a / BLKSIZE) && inUse m (2 + a / BLKSIZE / BLKBITSIZE)

/-- The number of blocks that a file of a size takes, as `fs.c` computes it. -/
def blocksFor (size : Word) : Word :=
  (size + BitVec.ofNat 32 BLKSIZE - 1).sdiv (BitVec.ofNat 32 BLKSIZE)

end Jos.Fs
