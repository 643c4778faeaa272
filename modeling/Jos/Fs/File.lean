import Jos.Fs.Layout

/-!
# The file system

The functions of `fs/fs.c`, and `diskaddr` of `fs/bc.c`, as programs that access the disk
map.  `flush_block` is the flush of the store.  A function that returns an error code and
sets a pointer returns `.error` of the code or `.ok` of the pointer.
-/

namespace Jos.Fs

open Bytes Io

/-! ### Blocks -/

/-- The address of a disk block. -/
def diskaddr (blockno : Word) : Io Nat :=
  if blockno = 0 then
    Io.panic "bad block number %08x in diskaddr"
  else do
    let n ← get32 s_nblocks
    if n ≤ blockno then
      Io.panic "bad block number %08x in diskaddr"
    else
      pure (blockno.toNat * BLKSIZE)

def flushBlock (addr : Nat) : Io Unit :=
  sync addr

/-- Mark a block free. -/
def freeBlock (blockno : Word) : Io Unit :=
  if blockno = 0 then
    Io.panic "attempt to free zero block"
  else do
    let w ← get32 (bitmapWord blockno.toNat)
    set32 (bitmapWord blockno.toNat) (w ||| bitmapMask blockno.toNat)

/-- The body of the inner loop of `alloc_block`: take block `i * 32 | j` if it is free. -/
def allocBit (i j : Nat) : Io (Option Word) := do
  let w ← get32 (bitmap + 4 * i)
  if w &&& (1#32 <<< j) ≠ 0 then do
    set32 (bitmap + 4 * i) (w &&& ~~~ (1#32 <<< j))
    let va ← diskaddr (BitVec.ofNat 32 ((i * 32 ||| j) / BLKBITSIZE + 2))
    flushBlock va
    pure (some (BitVec.ofNat 32 (i * 32 ||| j)))
  else
    pure none

/-- Allocate the first free block.  The bits in the last word of the bitmap are left out
when the number of blocks is not a multiple of 32. -/
def allocBlock : Io Word := do
  let n ← get32 s_nblocks
  let r ← findUp 0 (n.toNat / 32) (fun i => findUp 0 32 (fun j => allocBit i j))
  pure (r.getD (-E_NO_DISK))

/-! ### Blocks of files -/

/-- Give `f` an indirect block.  The block number is unsigned, so that it is never found to be
negative. -/
def allocIndirect (f : Nat) : Io (Option Word) := do
  let blkno ← allocBlock
  if blkno.ult 0 then
    pure (some (-E_NO_DISK))
  else do
    set32 (f_indirect f) blkno
    let va ← diskaddr blkno
    setBytes va (List.replicate BLKSIZE 0)
    pure none

/-- Make sure that `f` has an indirect block, or give the error code. -/
def needIndirect (f : Nat) (alloc : Bool) : Io (Option Word) := do
  let ind ← get32 (f_indirect f)
  if ind ≠ 0 then
    pure none
  else if alloc then
    allocIndirect f
  else
    pure (some (-E_NOT_FOUND))

/-- The slot for block `filebno` of `f`: one of the direct blocks, or an entry of the indirect
block, which is allocated when `alloc` says so. -/
def fileBlockWalk (f : Nat) (filebno : Word) (alloc : Bool) : Io (Except Word Nat) :=
  if filebno.toNat < NDIRECT then
    pure (.ok (f_direct f filebno.toNat))
  else if filebno.toNat < NINDIRECT + NDIRECT then do
    match ← needIndirect f alloc with
    | some r => pure (.error r)
    | none => do
        let ind ← get32 (f_indirect f)
        let va ← diskaddr ind
        pure (.ok (va + 4 * (filebno.toNat - NDIRECT)))
  else
    pure (.error (-E_INVAL))

/-- Fill the slot `blkno` if it is empty. -/
def fillSlot (blkno : Nat) : Io (Option Word) := do
  let b ← get32 blkno
  if b ≠ 0 then
    pure none
  else do
    let block_no ← allocBlock
    if block_no.ult 0 then
      pure (some (-E_NO_DISK))
    else do
      set32 blkno block_no
      pure none

/-- The address of block `filebno` of `f`, which is allocated if it does not exist.  The error
code of `file_block_walk` is kept in an unsigned variable, so that it is never found to be
negative, and the pointer to the slot is used before it is set. -/
def fileGetBlock (f : Nat) (filebno : Word) : Io (Except Word Nat) := do
  match ← fileBlockWalk f filebno true with
  | .error err =>
      if err.ult 0 then
        pure (.error err)
      else
        Io.panic "blkno is used uninitialised"
  | .ok blkno =>
      match ← fillSlot blkno with
      | some r => pure (.error r)
      | none => do
          let b ← get32 blkno
          let va ← diskaddr b
          pure (.ok va)

/-! ### Directories -/

/-- Whether `strcmp` finds the string at `a` equal to `name`. -/
def strcmpEq (a : Nat) : List Byte → Io Bool
  | [] => do
      let b ← get8 a
      pure (b == 0)
  | c :: cs => do
      let b ← get8 a
      if b = c then
        strcmpEq (a + 1) cs
      else
        pure false

/-- The entry at `f`, if it has the name. -/
def entryNamed (name : List Byte) (f : Nat) : Io (Option (Except Word Nat)) := do
  if ← strcmpEq (f_name f) name then
    pure (some (.ok f))
  else
    pure none

/-- The entry at `f`, if it is free. -/
def entryFree (f : Nat) : Io (Option (Except Word Nat)) := do
  let b ← get8 (f_name f)
  if b = 0 then
    pure (some (.ok f))
  else
    pure none

/-- Search the entries in block `i` of `dir`. -/
def searchBlock (dir i : Nat) (entry : Nat → Io (Option (Except Word Nat))) :
    Io (Option (Except Word Nat)) := do
  match ← fileGetBlock dir (BitVec.ofNat 32 i) with
  | .error r => pure (some (.error r))
  | .ok blk => findUp 0 BLKFILES (fun j => entry (blk + FILESIZE * j))

/-- The number of blocks of `dir`, whose size has to be a multiple of the block size. -/
def dirBlocks (dir : Nat) : Io Word := do
  let size ← get32 (f_size dir)
  if size.srem (BitVec.ofNat 32 BLKSIZE) ≠ 0 then
    Io.panic "assertion failed: (dir->f_size % BLKSIZE) == 0"
  else
    pure (size.sdiv (BitVec.ofNat 32 BLKSIZE))

/-- The file named `name` in `dir`. -/
def dirLookup (dir : Nat) (name : List Byte) : Io (Except Word Nat) := do
  let nblock ← dirBlocks dir
  let r ← findUp 0 nblock.toNat (fun i => searchBlock dir i (entryNamed name))
  pure (r.getD (.error (-E_NOT_FOUND)))

/-- Let `dir` grow by a block, and take the first entry in it. -/
def dirGrow (dir : Nat) (nblock : Word) : Io (Except Word Nat) := do
  let size ← get32 (f_size dir)
  set32 (f_size dir) (size + BitVec.ofNat 32 BLKSIZE)
  fileGetBlock dir nblock

/-- A free entry of `dir`. -/
def dirAllocFile (dir : Nat) : Io (Except Word Nat) := do
  let nblock ← dirBlocks dir
  match ← findUp 0 nblock.toNat (fun i => searchBlock dir i entryFree) with
  | some r => pure r
  | none => dirGrow dir nblock

def skipSlash (p : List Byte) : List Byte :=
  p.dropWhile (· == SLASH)

/-- What `walk_path` returns and sets. -/
structure Walk where
  r : Word
  pdir : Option Nat
  pf : Option Nat
  lastelem : List Byte

/-- The loop of `walk_path`, which goes around at most once for each character of `path`. -/
def walkLoop : Nat → List Byte → Option Nat → Nat → Io Walk
  | 0, _, dir, f => pure ⟨0, dir, some f, []⟩
  | n + 1, path, dir, f =>
      if path = [] then
        pure ⟨0, dir, some f, []⟩
      else if MAXNAMELEN ≤ (path.takeWhile (· != SLASH)).length then
        pure ⟨-E_BAD_PATH, none, none, []⟩
      else do
        let type ← get32 (f_type f)
        if type ≠ FTYPE_DIR then
          pure ⟨-E_NOT_FOUND, none, none, []⟩
        else do
          match ← dirLookup f (path.takeWhile (· != SLASH)) with
          | .ok f' => walkLoop n (skipSlash (path.dropWhile (· != SLASH))) (some f) f'
          | .error r =>
              if r = -E_NOT_FOUND ∧ skipSlash (path.dropWhile (· != SLASH)) = [] then
                pure ⟨r, some f, none, path.takeWhile (· != SLASH)⟩
              else
                pure ⟨r, none, none, []⟩

/-- Evaluate a path from the root on. -/
def walkPath (path : List Byte) : Io Walk :=
  walkLoop (skipSlash path).length (skipSlash path) none s_root

/-! ### Files -/

/-- Flush the block in the slot at `pdiskbno`. -/
def flushSlot (pdiskbno : Nat) : Io Unit := do
  let b ← get32 pdiskbno
  if b = 0 then
    pure ()
  else do
    let va ← diskaddr b
    flushBlock va

/-- Flush block `i` of `f`. -/
def flushFileBlock (f i : Nat) : Io Unit := do
  match ← fileBlockWalk f (BitVec.ofNat 32 i) false with
  | .error _ => pure ()
  | .ok pdiskbno => flushSlot pdiskbno

/-- Flush the blocks of `f`, the block with the `struct File`, and the indirect block. -/
def fileFlush (f : Nat) : Io Unit := do
  let size ← get32 (f_size f)
  forUp 0 (blocksFor size).toInt.toNat (flushFileBlock f)
  flushBlock f
  flushSlot (f_indirect f)

/-- Create a file in `dir`. -/
def createIn (dir : Nat) (name : List Byte) : Io (Except Word Nat) := do
  match ← dirAllocFile dir with
  | .error r => pure (.error r)
  | .ok f => do
      setBytes (f_name f) (name ++ [0])
      fileFlush dir
      pure (.ok f)

def fileCreate (path : List Byte) : Io (Except Word Nat) := do
  let w ← walkPath path
  if w.r = 0 then
    pure (.error (-E_FILE_EXISTS))
  else
    match w.pdir with
    | none => pure (.error w.r)
    | some dir =>
        if w.r ≠ -E_NOT_FOUND then
          pure (.error w.r)
        else
          createIn dir w.lastelem

def fileOpen (path : List Byte) : Io (Except Word Nat) := do
  let w ← walkPath path
  match w.pf with
  | some f => pure (.ok f)
  | none => pure (.error w.r)

/-- The smaller of two numbers, compared as `MIN` compares a signed number with an unsigned
one. -/
def minU (a b : Word) : Word :=
  if a ≤ b then a else b

/-- The number of bytes from `pos` on that are accessed at a time. -/
def chunk (pos stop : Word) : Word :=
  minU (BitVec.ofNat 32 BLKSIZE - pos.srem (BitVec.ofNat 32 BLKSIZE)) (stop - pos)

/-- The address of position `pos` in the block at `blk`. -/
def within (blk : Nat) (pos : Word) : Nat :=
  (blk + (pos.srem (BitVec.ofNat 32 BLKSIZE)).toInt).toNat

/-- The loop of `file_read` up to the position `stop`, which goes around at most once for each
byte.  It returns `count` and the bytes read. -/
def readLoop (f : Nat) (count stop : Word) : Nat → Word → List Byte → Io (Word × List Byte)
  | 0, _, buf => pure (count, buf)
  | n + 1, pos, buf =>
      if pos < stop then do
        match ← fileGetBlock f (pos.sdiv (BitVec.ofNat 32 BLKSIZE)) with
        | .error r => pure (r, buf)
        | .ok blk => do
            let bs ← getBytes (within blk pos) (chunk pos stop).toNat
            readLoop f count stop n (pos + chunk pos stop) (buf ++ bs)
      else
        pure (count, buf)

/-- Read at most `count` bytes of `f` from `offset` on. -/
def fileRead (f : Nat) (count offset : Word) : Io (Word × List Byte) := do
  let size ← get32 (f_size f)
  if size.sle offset then
    pure (0, [])
  else
    let count := minU count (size - offset)
    readLoop f count (offset + count) count.toNat offset []

/-! ### Sizes -/

/-- Remove block `filebno` from `f`. -/
def fileFreeBlock (f : Nat) (filebno : Word) : Io Word := do
  match ← fileBlockWalk f filebno false with
  | .error r => pure r
  | .ok ptr => do
      let b ← get32 ptr
      if b ≠ 0 then do
        freeBlock b
        set32 ptr 0
        pure 0
      else
        pure 0

/-- Free the indirect block of `f`, if there is one. -/
def freeIndirect (f : Nat) : Io Unit := do
  let ind ← get32 (f_indirect f)
  if ind ≠ 0 then do
    freeBlock ind
    set32 (f_indirect f) 0
  else
    pure ()

/-- Remove the blocks of `f` that a file of size `newsize` does not need.  A warning is printed
for a block that can not be removed. -/
def fileTruncateBlocks (f : Nat) (newsize : Word) : Io Unit := do
  let size ← get32 (f_size f)
  forUp (blocksFor newsize).toNat ((blocksFor size).toNat - (blocksFor newsize).toNat)
    (fun bno => do
      let _ ← fileFreeBlock f (BitVec.ofNat 32 bno)
      pure ())
  if (blocksFor newsize).toNat ≤ NDIRECT then
    freeIndirect f
  else
    pure ()

/-- Truncate `f` if it is larger than `newsize`. -/
def truncateTo (f : Nat) (newsize : Word) : Io Unit := do
  let size ← get32 (f_size f)
  if newsize.slt size then
    fileTruncateBlocks f newsize
  else
    pure ()

/-- Set the size of `f`. -/
def fileSetSize (f : Nat) (newsize : Word) : Io Word := do
  truncateTo f newsize
  set32 (f_size f) newsize
  flushBlock f
  pure 0

/-- Extend `f` to the size `stop` if it is smaller, as unsigned numbers. -/
def extendTo (f : Nat) (stop : Word) : Io Word := do
  let size ← get32 (f_size f)
  if size < stop then
    fileSetSize f stop
  else
    pure 0

/-- The loop of `file_write` up to the position `stop`, which goes around at most once for each
byte. -/
def writeLoop (f : Nat) (count stop : Word) : Nat → Word → List Byte → Io Word
  | 0, _, _ => pure count
  | n + 1, pos, buf =>
      if pos < stop then do
        match ← fileGetBlock f (pos.sdiv (BitVec.ofNat 32 BLKSIZE)) with
        | .error r => pure r
        | .ok blk => do
            setBytes (within blk pos) (buf.take (chunk pos stop).toNat)
            writeLoop f count stop n (pos + chunk pos stop) (buf.drop (chunk pos stop).toNat)
      else
        pure count

/-- Write the bytes of `buf` to `f` from `offset` on. -/
def fileWrite (f : Nat) (buf : List Byte) (offset : Word) : Io Word := do
  let count := BitVec.ofNat 32 buf.length
  let r ← extendTo f (offset + count)
  if r.slt 0 then
    pure r
  else
    writeLoop f count (offset + count) count.toNat offset buf

/-- Remove a file. -/
def fileRemove (path : List Byte) : Io Word := do
  let w ← walkPath path
  match w.pf with
  | none => pure w.r
  | some f => do
      fileTruncateBlocks f 0
      set8 (f_name f) 0
      set32 (f_size f) 0
      flushBlock f
      pure 0

/-- Flush all blocks. -/
def fsSync : Io Unit := do
  let n ← get32 s_nblocks
  forUp 1 (n.toNat - 1) (fun i => do
    let va ← diskaddr (BitVec.ofNat 32 i)
    flushBlock va)

end Jos.Fs
