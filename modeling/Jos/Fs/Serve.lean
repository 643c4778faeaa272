import Jos.Fs.Refusal
import Jos.Kern.Mmu

/-!
# The file server

The functions of `fs/serv.c`.  For each file that is open the server has a slot of `opentab` and a
page with a `struct Fd`, which it shares with the environments that have the file open; it finds out
whether there are such environments from the number of references to the page.  A request is a page
that a client sends, and the reply may be written over it.
-/

namespace Jos.Fs

open Bytes Io

/-! ### The tables -/

def MAXOPEN : Nat := 1024
def E_NO_MEM : Word := 4

def O_ACCMODE : Word := 0x0003
def O_CREAT : Word := 0x0100
def O_TRUNC : Word := 0x0200
def O_EXCL : Word := 0x0400

/-- A `struct OpenFile`, without the address of its `Fd` page, which never changes. -/
structure OpenFile where
  o_fileid : Word
  /-- The address of the `struct File`, or `none` for the null pointer. -/
  o_file : Option Nat
  o_mode : Word

/-- What an `Fd` page says of a file. -/
structure FdPage where
  fd_dev_id : Word
  fd_offset : Word
  fd_omode : Word
  fd_file_id : Word

/-- The slots, the references to their `Fd` pages as the kernel counts them, and these pages.  There
are no references when the server has not allocated the page. -/
structure Server where
  opentab : Nat → OpenFile
  ppRef : Nat → BitVec 16
  fd : Nat → FdPage

/-- The number of references to the `Fd` page of a slot. -/
def Server.pageref (t : Server) (i : Nat) : Nat :=
  (t.ppRef i).toNat

/-- The device of files. -/
def devfileId : Word := 0x66

def serveInit : Server where
  opentab i := ⟨BitVec.ofNat 32 i, none, if i = 0 then 1 else 0⟩
  ppRef _ := 0
  fd _ := ⟨0, 0, 0, 0⟩

/-- The slot of a file id. -/
def slotOf (fileid : Word) : Nat :=
  fileid.toNat % MAXOPEN

/-- Take the slot `i`: it gets the next id, and its page is cleared. -/
def Server.take (t : Server) (i : Nat) : Server where
  opentab := Function.update t.opentab i
    { t.opentab i with o_fileid := (t.opentab i).o_fileid + BitVec.ofNat 32 MAXOPEN }
  ppRef := Function.update t.ppRef i 1
  fd := Function.update t.fd i ⟨0, 0, 0, 0⟩

theorem Server.take_fileid_self (t : Server) (i : Nat) :
  ((t.take i).opentab i).o_fileid = (t.opentab i).o_fileid + BitVec.ofNat 32 MAXOPEN
  := by
  simp only [take, Function.update_self]

theorem Server.take_opentab {t : Server} {i j : Nat} (h : j ≠ i) :
  (t.take i).opentab j = t.opentab j
  := Function.update_of_ne h _ _

theorem Server.take_pageref_self (t : Server) (i : Nat) :
  (t.take i).pageref i = 1
  := by
  simp only [pageref, take, Function.update_self]
  rfl

theorem Server.take_pageref {t : Server} {i j : Nat} (h : j ≠ i) :
  (t.take i).pageref j = t.pageref j
  := by simp only [pageref, take, Function.update_of_ne h]

theorem Server.take_fd_self (t : Server) (i : Nat) :
  (t.take i).fd i = ⟨0, 0, 0, 0⟩
  := Function.update_self _ _ _

theorem Server.take_fd {t : Server} {i j : Nat} (h : j ≠ i) :
  (t.take i).fd j = t.fd j
  := Function.update_of_ne h _ _

/-- Find a slot whose page no environment shares.  `noMem` says whether the kernel refuses a page. -/
def openfileAlloc (noMem : Bool) (t : Server) : Except Word Nat × Server :=
  match (List.range MAXOPEN).find? (fun i => t.pageref i ≤ 1) with
  | none => (.error (-E_MAX_OPEN), t)
  | some i =>
      if t.pageref i = 0 ∧ noMem = true then
        (.error (-E_NO_MEM), t)
      else
        (.ok i, t.take i)

/-- Look up an open file. -/
def openfileLookup (fileid : Word) (t : Server) : Except Word Nat :=
  if t.pageref (slotOf fileid) = 1 ∨ (t.opentab (slotOf fileid)).o_fileid ≠ fileid then
    .error (-E_INVAL)
  else
    .ok (slotOf fileid)

/-- The file of a slot.  An access to its structure is a page fault outside of the disk map when the
pointer is null. -/
def OpenFile.file (o : OpenFile) : Io Nat :=
  match o.o_file with
  | some f => pure f
  | none => Io.panic "page fault in FS: eip %08x, va %08x, err %04x"

/-- Move the seek position. -/
def Server.seek (t : Server) (i : Nat) (offset : Word) : Server :=
  { t with fd := Function.update t.fd i { t.fd i with fd_offset := offset } }

/-! ### Requests -/

def FSREQ_OPEN : Word := 1
def FSREQ_SET_SIZE : Word := 2
def FSREQ_READ : Word := 3
def FSREQ_WRITE : Word := 4
def FSREQ_STAT : Word := 5
def FSREQ_FLUSH : Word := 6
def FSREQ_REMOVE : Word := 7
def FSREQ_SYNC : Word := 8

/-- The path in a request, of which the last byte is overwritten with a null. -/
def reqPath (page : Memory) : List Byte :=
  ((List.range (MAXPATHLEN - 1)).map page).takeWhile (· != 0)

/-- The mode in a request to open. -/
def reqOmode (page : Memory) : Word := read32 page MAXPATHLEN

/-- The file id, with which requests on open files start. -/
def reqFileid (page : Memory) : Word := read32 page 0

/-- The size or the number of bytes that follows the file id. -/
def reqN (page : Memory) : Word := read32 page 4

/-- The bytes to be written. -/
def reqBuf (page : Memory) (n : Nat) : List Byte :=
  (List.range n).map (fun i => page (8 + i))

/-- The bytes that fit in a request to write. -/
def BUFSIZE : Nat := PGSIZE - (4 + 4)

/-- The page with the request, and the permissions with which it is mapped. -/
structure Fsipc where
  perm : Word
  page : Memory

/-- The request, which the server may read when it is mapped for the user. -/
def Fsipc.get (ipc : Fsipc) : Io Memory :=
  if ipc.perm &&& PTE_U ≠ 0 then pure ipc.page
  else Io.panic "page fault in FS: eip %08x, va %08x, err %04x"

/-- Put a reply over the request: nothing is stored when the bytes are none. -/
def Fsipc.put (ipc : Fsipc) (bs : List Byte) (page : Memory) : Io Memory :=
  if bs = [] ∨ ipc.perm &&& PTE_W ≠ 0 then pure page
  else Io.panic "page fault in FS: eip %08x, va %08x, err %04x"

/-- What a request returns, the page with the reply, and the server after it. -/
abbrev Handled : Type := Word × Memory × Server

/-- Find the open file of a request, and go on with the request, the slot and the file. -/
def withOpen (ipc : Fsipc) (t : Server) (op : Memory → Nat → Nat → Io Handled) : Io Handled := do
  let req ← ipc.get
  match openfileLookup (reqFileid req) t with
  | .error r => pure (r, ipc.page, t)
  | .ok i => do
      let f ← (t.opentab i).file
      op req i f

def serveSetSize (ipc : Fsipc) (t : Server) : Io Handled :=
  withOpen ipc t (fun req _ f => do
    let r ← fileSetSize f (reqN req)
    pure (r, ipc.page, t))

/-- The bytes are put over the request.  The count is unsigned, so that an error code moves the seek
position as well. -/
def serveRead (ipc : Fsipc) (t : Server) : Io Handled :=
  withOpen ipc t (fun req i f => do
    let (nbytes, buf) ← fileRead f (minU (reqN req) (BitVec.ofNat 32 PGSIZE)) (t.fd i).fd_offset
    let page ← ipc.put buf (writeBytes req 0 buf)
    if 0 < nbytes then
      pure (nbytes, page, t.seek i ((t.fd i).fd_offset + nbytes))
    else
      pure (nbytes, page, t))

/-- The count is unsigned, so that it is never found to be negative. -/
def serveWrite (ipc : Fsipc) (t : Server) : Io Handled :=
  withOpen ipc t (fun req i f => do
    let n := minU (reqN req) (BitVec.ofNat 32 BUFSIZE)
    let nbytes ← fileWrite f (reqBuf req n.toNat) (t.fd i).fd_offset
    pure (nbytes, ipc.page, t.seek i ((t.fd i).fd_offset + nbytes)))

/-- The string at `a`, which has to end within `n` bytes. -/
def getString (a : Nat) : Nat → Io (List Byte)
  | 0 => Io.panic "the string is not terminated"
  | n + 1 => do
      let b ← get8 a
      if b = 0 then
        pure []
      else do
        let bs ← getString (a + 1) n
        pure (b :: bs)

/-- The reply to a request for the name, the size and the type of a file. -/
def statRet (page : Memory) (name : List Byte) (size : Word) (isdir : Bool) : Memory :=
  write32 (write32 (writeBytes page 0 (name ++ [0])) MAXNAMELEN size) (MAXNAMELEN + 4)
    (if isdir then 1 else 0)

def serveStat (ipc : Fsipc) (t : Server) : Io Handled :=
  withOpen ipc t (fun req _ f => do
    let name ← getString (f_name f) MAXNAMELEN
    let size ← get32 (f_size f)
    let type ← get32 (f_type f)
    let page ← ipc.put (name ++ [0]) (statRet req name size (type == FTYPE_DIR))
    pure (0, page, t))

def serveFlush (ipc : Fsipc) (t : Server) : Io Handled :=
  withOpen ipc t (fun _ _ f => do
    fileFlush f
    pure (0, ipc.page, t))

def serveRemove (ipc : Fsipc) (t : Server) : Io Handled := do
  let req ← ipc.get
  let r ← fileRemove (reqPath req)
  pure (r, ipc.page, t)

def serveSync (ipc : Fsipc) (t : Server) : Io Handled := do
  fsSync
  pure (0, ipc.page, t)

/-! ### Opening a file -/

/-- The file at the path, which is created when the mode says so. -/
def createOrOpen (path : List Byte) (omode : Word) : Io (Except Word Nat) := do
  if omode &&& O_CREAT ≠ 0 then
    match ← fileCreate path with
    | .ok f => pure (.ok f)
    | .error r =>
        if omode &&& O_EXCL = 0 ∧ r = -E_FILE_EXISTS then
          fileOpen path
        else
          pure (.error r)
  else
    fileOpen path

/-- The file at the path, which is truncated when the mode says so. -/
def openPath (path : List Byte) (omode : Word) : Io (Except Word Nat) := do
  match ← createOrOpen path omode with
  | .error r => pure (.error r)
  | .ok f =>
      if omode &&& O_TRUNC ≠ 0 then do
        let r ← fileSetSize f 0
        if r.slt 0 then
          pure (.error r)
        else
          pure (.ok f)
      else
        pure (.ok f)

/-- The slot `i` is filled in for the file `f`. -/
def Server.opened (t : Server) (i f : Nat) (omode : Word) : Server where
  opentab := Function.update t.opentab i
    { t.opentab i with o_file := some f, o_mode := omode }
  ppRef := t.ppRef
  fd := Function.update t.fd i
    { t.fd i with
      fd_file_id := (t.opentab i).o_fileid
      fd_omode := omode &&& O_ACCMODE
      fd_dev_id := devfileId }

theorem Server.opened_fileid (t : Server) (i f : Nat) (omode : Word) (j : Nat) :
  ((t.opened i f omode).opentab j).o_fileid = (t.opentab j).o_fileid
  := by
  by_cases h : j = i
  · simp only [h, opened, Function.update_self]
  · simp only [opened, Function.update_of_ne h]

@[simp] theorem Server.opened_pageref (t : Server) (i f : Nat) (omode : Word) :
  (t.opened i f omode).pageref = t.pageref
  := rfl

theorem Server.opened_opentab {t : Server} {i j f : Nat} {omode : Word} (h : j ≠ i) :
  (t.opened i f omode).opentab j = t.opentab j
  := Function.update_of_ne h _ _

theorem Server.opened_fd {t : Server} {i j f : Nat} {omode : Word} (h : j ≠ i) :
  (t.opened i f omode).fd j = t.fd j
  := Function.update_of_ne h _ _

/-- What `serve_open` returns, the slot whose page is sent, and the server after it. -/
def serveOpen (noMem : Bool) (ipc : Fsipc) (t : Server) : Io (Word × Option Nat × Server) := do
  let req ← ipc.get
  match openfileAlloc noMem t with
  | (.error r, t) => pure (r, none, t)
  | (.ok i, t) =>
      -- the id is returned where a negative number is an error code
      if (t.opentab i).o_fileid.slt 0 then
        pure ((t.opentab i).o_fileid, none, t)
      else do
        match ← openPath (reqPath req) (reqOmode req) with
        | .error r => pure (r, none, t)
        | .ok f => pure (0, some i, t.opened i f (reqOmode req))

/-! ### Serving -/

/-- The handlers of requests other than to open a file. -/
def handlers (req : Word) : Option (Fsipc → Server → Io Handled) :=
  if req = FSREQ_SET_SIZE then some serveSetSize
  else if req = FSREQ_READ then some serveRead
  else if req = FSREQ_WRITE then some serveWrite
  else if req = FSREQ_STAT then some serveStat
  else if req = FSREQ_FLUSH then some serveFlush
  else if req = FSREQ_REMOVE then some serveRemove
  else if req = FSREQ_SYNC then some serveSync
  else none

/-- A message that is sent back: the value, the slot whose page is sent, and the permissions; and
the page with the request, which the client still maps. -/
structure Answer where
  r : Word
  pg : Option Nat
  perm : Word
  page : Memory

/-- One turn of the loop of `serve`.  A request without a page is not answered. -/
def serve (req : Word) (ipc : Fsipc) (noMem : Bool) (t : Server) : Io (Option Answer × Server) :=
  if ipc.perm &&& PTE_P = 0 then
    pure (none, t)
  else if req = FSREQ_OPEN then do
    let (r, pg, t) ← serveOpen noMem ipc t
    pure (some ⟨r, pg, if pg.isSome then PTE_P ||| PTE_U ||| PTE_W else ipc.perm, ipc.page⟩, t)
  else
    match handlers req with
    | some handler => do
        let (r, page, t) ← handler ipc t
        pure (some ⟨r, none, ipc.perm, page⟩, t)
    | none => pure (some ⟨-E_INVAL, none, ipc.perm, ipc.page⟩, t)

end Jos.Fs
