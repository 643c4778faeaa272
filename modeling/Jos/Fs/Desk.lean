import Jos.Fs.Session
import Jos.Fs.Serve

/-!
# What a file server is for

Seen from its clients, a file server keeps a volume, and for each file that is open a handle: the
path of the file, the seek position, and the number of places where clients map the page they share
with the server.  A handle is gone when there is no such place any more, and its id is never given
again.  Requests on a handle read and change the bytes of its file.
-/

namespace Jos.Fs

open Bytes

/-- A file that is open. -/
structure Handle where
  path : List (List Byte)
  offset : Word
  holders : Nat

/-- The volume, the handles by their ids, and the ids given so far. -/
structure Desk where
  volume : Volume
  handles : Word → Option Handle
  given : List Word

def Desk.setHandle (D : Desk) (id : Word) (h : Option Handle) : Desk :=
  { D with handles := Function.update D.handles id h }

/-- A file server that has just been started. -/
def Desk.start (V : Volume) : Desk :=
  ⟨V, fun _ => none, []⟩

/-! ### Requests on a handle -/

/-- What a request does to a file: the value and the page that are returned, the new seek position
and the new bytes. -/
abbrev Effect : Type := Word × Memory × Word × List Byte

/-- A request on a handle: nothing is done if there is no such handle. -/
def Desk.onHandle (D : Desk) (page : Memory) (op : Handle → List Byte → Effect) :
    Word × Memory × Desk :=
  match D.handles (reqFileid page) with
  | none => (-E_INVAL, page, D)
  | some h =>
      match D.volume h.path with
      | some (.file bytes) =>
          match op h bytes with
          | (r, page', offset, bytes') =>
              (r, page',
                { D with volume := Function.update D.volume h.path (some (.file bytes')) }.setHandle
                  (reqFileid page) (some { h with offset := offset }))
      | _ => (0, page, D)

def Desk.setSize (D : Desk) (page : Memory) : Word × Memory × Desk :=
  D.onHandle page (fun h bytes => (0, page, h.offset, bytes.take (reqN page).toNat))

/-- The bytes from the seek position on, at most a page of them. -/
def Desk.read (D : Desk) (page : Memory) : Word × Memory × Desk :=
  D.onHandle page (fun h bytes =>
    let buf := (bytes.drop h.offset.toNat).take (min (reqN page).toNat PGSIZE)
    (BitVec.ofNat 32 buf.length, writeBytes page 0 buf, h.offset + BitVec.ofNat 32 buf.length, bytes))

/-- The bytes in the request, which are put at the seek position. -/
def Desk.write (D : Desk) (page : Memory) : Word × Memory × Desk :=
  D.onHandle page (fun h bytes =>
    let buf := reqBuf page (min (reqN page).toNat BUFSIZE)
    (BitVec.ofNat 32 buf.length, page, h.offset + BitVec.ofNat 32 buf.length,
      bytes.take h.offset.toNat ++ buf ++ bytes.drop (h.offset.toNat + buf.length)))

def Desk.stat (D : Desk) (page : Memory) : Word × Memory × Desk :=
  D.onHandle page (fun h bytes =>
    (0, statRet page (h.path.getLastD []) (BitVec.ofNat 32 bytes.length) false, h.offset, bytes))

def Desk.flush (D : Desk) (page : Memory) : Word × Memory × Desk :=
  D.onHandle page (fun h bytes => (0, page, h.offset, bytes))

def Desk.remove (D : Desk) (page : Memory) : Word × Memory × Desk :=
  ((D.volume.remove (components (reqPath page))).1, page,
    { D with volume := (D.volume.remove (components (reqPath page))).2 })

/-- The requests other than to open a file. -/
def Desk.handlers (D : Desk) (req : Word) (page : Memory) : Word × Memory × Desk :=
  if req = FSREQ_SET_SIZE then D.setSize page
  else if req = FSREQ_READ then D.read page
  else if req = FSREQ_WRITE then D.write page
  else if req = FSREQ_STAT then D.stat page
  else if req = FSREQ_FLUSH then D.flush page
  else if req = FSREQ_REMOVE then D.remove page
  else if req = FSREQ_SYNC then (0, page, D)
  else (-E_INVAL, page, D)

/-! ### Opening a file -/

/-- Find a path of a volume, which is created when the mode says so. -/
def Volume.createOrOpen (V : Volume) (cs : List (List Byte)) (omode : Word) : Word × Volume :=
  if omode &&& O_CREAT ≠ 0 then
    if omode &&& O_EXCL = 0 ∧ (V.create cs).1 = -E_FILE_EXISTS then (0, V) else V.create cs
  else
    (V.code [] cs, V)

/-- Open a path of a volume, which is truncated when the mode says so. -/
def Volume.openPath (V : Volume) (cs : List (List Byte)) (omode : Word) : Word × Volume :=
  match V.createOrOpen cs omode with
  | (r, V) => if r = 0 ∧ omode &&& O_TRUNC ≠ 0 then (0, Function.update V cs (some (.file []))) else (r, V)

/-- A request to open is refused when each slot has a handle, or when there is no page for another
one; otherwise the path is opened, and a new handle is given if the client takes it. -/
inductive Desk.Opens (D : Desk) (page : Memory) (perm : Word) (noMem taken : Bool) :
    Answer → Desk → Prop where
  | full (h : ∀ i < MAXOPEN, ∃ id, slotOf id = i ∧ (D.handles id).isSome = true) :
      D.Opens page perm noMem taken ⟨-E_MAX_OPEN, none, perm, page⟩ D
  | noMem (h : noMem = true) :
      D.Opens page perm noMem taken ⟨-E_NO_MEM, none, perm, page⟩ D
  | fails {r : Word} {V : Volume}
      (h : D.volume.openPath (components (reqPath page)) (reqOmode page) = (r, V)) (hr : r ≠ 0) :
      D.Opens page perm noMem taken ⟨r, none, perm, page⟩ { D with volume := V }
  | opens {V : Volume} {id : Word}
      (h : D.volume.openPath (components (reqPath page)) (reqOmode page) = (0, V))
      (hid : id ∉ D.given) :
      D.Opens page perm noMem taken ⟨0, some (slotOf id), PTE_P ||| PTE_U ||| PTE_W, page⟩
        { volume := V
          handles := if taken then
            Function.update D.handles id (some ⟨components (reqPath page), 0, 1⟩) else D.handles
          given := id :: D.given }

/-! ### What happens -/

/-- What a file server and its clients do. -/
inductive Act where
  /-- A message is served.  The kernel may refuse a page, and the client may take the page that is
  sent. -/
  | serve (req : Word) (ipc : Fsipc) (noMem taken : Bool)
  /-- The page of a handle is mapped at another place, by `dup`, `fork` or `spawn`. -/
  | map (id : Word)
  /-- A mapping of the page goes away. -/
  | unmap (id : Word)
  /-- A client stores to the page. -/
  | poke (id : Word) (fd : FdPage)

/-- What an act, and the message that is sent back, mean. -/
inductive Desk.Step : Act × Option Answer → Desk → Desk → Prop where
  | ignored {D : Desk} {req : Word} {ipc : Fsipc} {noMem taken : Bool}
      (hperm : ipc.perm &&& PTE_P = 0) :
      Desk.Step (.serve req ipc noMem taken, none) D D
  | opens {D D' : Desk} {ipc : Fsipc} {noMem taken : Bool} {a : Answer}
      (hperm : ipc.perm &&& PTE_P ≠ 0) (h : D.Opens ipc.page ipc.perm noMem taken a D') :
      Desk.Step (.serve FSREQ_OPEN ipc noMem taken, some a) D D'
  | handles {D D' : Desk} {req r : Word} {ipc : Fsipc} {noMem taken : Bool} {page : Memory}
      (hperm : ipc.perm &&& PTE_P ≠ 0) (hreq : req ≠ FSREQ_OPEN)
      (h : D.handlers req ipc.page = (r, page, D')) :
      Desk.Step (.serve req ipc noMem taken, some ⟨r, none, ipc.perm, page⟩) D D'
  | map {D : Desk} {id : Word} {h : Handle} (hid : D.handles id = some h) :
      Desk.Step (.map id, none) D (D.setHandle id (some { h with holders := h.holders + 1 }))
  | unmap {D : Desk} {id : Word} {h : Handle} (hid : D.handles id = some h) :
      Desk.Step (.unmap id, none) D
        (D.setHandle id (if h.holders = 1 then none else some { h with holders := h.holders - 1 }))
  | poke {D : Desk} {id : Word} {fd : FdPage} {h : Handle} (hid : D.handles id = some h) :
      Desk.Step (.poke id fd, none) D (D.setHandle id (some { h with offset := fd.fd_offset }))

end Jos.Fs
