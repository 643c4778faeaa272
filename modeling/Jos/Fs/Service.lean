import Jos.Fs.Serving

/-!
# Runs of the file server

Clients send requests in any order, with any codes, ids and bytes, share the pages of their handles
among each other, store to them and drop them.  Whatever the order, the replies are those that the
handles and the volume call for, as long as each request that is served can be served without the
defects of the server: a file that grows has blocks to grow into, no file is removed while it is
open, and no slot is asked for before it was ever used or is used so often that its ids run out.
No page is mapped at so many places that the kernel can not count them.
-/

namespace Jos.Fs

open Bytes Io NameTree

variable {m : Memory} {t t' : Server} {D D' : Desk} {hd : Handle} {s s' : Cache} {id req : Word}
  {ipc : Fsipc} {noMem taken : Bool}

/-! ### Requests that can be served -/

/-- The request may be read. -/
def Fsipc.Readable (ipc : Fsipc) : Prop := ipc.perm &&& PTE_U ≠ 0

/-- A reply may be put over the request. -/
def Fsipc.Writable (ipc : Fsipc) : Prop := ipc.perm &&& PTE_W ≠ 0

/-- The seek position of the request. -/
def Server.offset (t : Server) (ipc : Fsipc) : Word :=
  (t.fd (slotOf (reqFileid ipc.page))).fd_offset

/-- The bytes that a request writes. -/
def Fsipc.buf (ipc : Fsipc) : List Byte :=
  reqBuf ipc.page (min (reqN ipc.page).toNat BUFSIZE)

/-- What has to hold of a request. -/
def Ready (m : Memory) (t : Server) (req : Word) (ipc : Fsipc) : Prop :=
  if req = FSREQ_OPEN then
    ipc.Readable ∧ OpenReady m t ipc
  else if req = FSREQ_SET_SIZE then
    ipc.Readable ∧ t.Used ipc ∧ t.OnFile ipc (fun f =>
      fileType m f ≠ FTYPE_DIR ∧ (reqN ipc.page).toNat ≤ fileSize m f)
  else if req = FSREQ_READ then
    ipc.Readable ∧ ipc.Writable ∧ t.Used ipc ∧ t.OnFile ipc (fun f =>
      fileType m f ≠ FTYPE_DIR ∧ (t.offset ipc).toNat < 2 ^ 31)
  else if req = FSREQ_WRITE then
    ipc.Readable ∧ t.Used ipc ∧ t.OnFile ipc (fun f =>
      fileType m f ≠ FTYPE_DIR ∧ (t.offset ipc).toNat ≤ fileSize m f
        ∧ (t.offset ipc).toNat + min (reqN ipc.page).toNat BUFSIZE ≤ MAXFILESIZE
        ∧ missing m f (blockCount (newSize m f ipc.buf (t.offset ipc))) ≤ avail m)
  else if req = FSREQ_STAT then
    ipc.Readable ∧ ipc.Writable ∧ t.Used ipc ∧ t.OnFile ipc (fun f => fileType m f ≠ FTYPE_DIR)
  else if req = FSREQ_FLUSH then
    ipc.Readable ∧ t.Used ipc
  else if req = FSREQ_REMOVE then
    ipc.Readable ∧ ∀ f, resolve (child m) s_root (components (reqPath ipc.page)) = some f →
      fileType m f = FTYPE_REG ∧ ∀ id, t.Holds id → (t.opentab (slotOf id)).o_file ≠ some f
  else
    True

/-! ### One turn -/

/-- What runs on the memory runs on the cache. -/
theorem execs_of_ends {α : Type} {p : Io α} {Q : α → Memory → Prop} (hs : Coherent s)
    (h : p.Ends valid s.view Q False) :
  Execs p s (fun a s' => Coherent s' ∧ Q a s'.view)
  := by
  rcases exec_of_ends hs h with ⟨a, s', heq, hs', hQ⟩ | ⟨-, hno⟩
  · exact ⟨a, s', heq, hs', hQ⟩
  · exact hno.elim

/-- The reply, and what follows it, is what the request means on the handles. -/
def Meets (D : Desk) (req : Word) (ipc : Fsipc) (noMem taken : Bool) (x : Option Answer × Server)
    (s' : Cache) : Prop :=
  Coherent s' ∧ ∃ D', Desk.Step (.serve req ipc noMem taken, x.1) D D'
    ∧ Agree s'.view (x.2.sent (x.1.bind Answer.pg) taken) D'

/-- A request that has a handler. -/
theorem serve_handler {handler : Fsipc → Server → Io Handled} (hperm : ipc.perm &&& PTE_P ≠ 0)
    (hreq : req ≠ FSREQ_OPEN) (hhandler : handlers req = some handler)
    (h : Execs (handler ipc t) s (fun x s' => Coherent s' ∧
      ∃ D', D.handlers req ipc.page = (x.1, x.2.1, D') ∧ Agree s'.view x.2.2 D')) :
  Execs (serve req ipc noMem t) s (Meets D req ipc noMem taken)
  := by
  rw [serve, if_neg hperm, if_neg hreq, hhandler]
  apply execs_bind
  apply h.mono
  rintro ⟨r, page, t'⟩ s' ⟨hs', D', heq, hagree⟩
  exact execs_pure ⟨hs', D', .handles hperm hreq heq, hagree⟩

/-- A turn of the server on a request that can be served. -/
theorem serve_meets (noMem taken : Bool) (hs : Coherent s) (h : Agree s.view t D)
    (hready : ipc.perm &&& PTE_P ≠ 0 → Ready s.view t req ipc) :
  Execs (serve req ipc noMem t) s (Meets D req ipc noMem taken)
  := by
  by_cases hperm : ipc.perm &&& PTE_P = 0
  · rw [serve, if_pos hperm]
    exact execs_pure ⟨hs, D, .ignored hperm, h⟩
  have hr := hready hperm
  by_cases hopen : req = FSREQ_OPEN
  · subst hopen
    rw [Ready, if_pos rfl] at hr
    rw [serve, if_neg hperm, if_pos rfl]
    apply execs_bind
    apply (execs_of_ends hs (ends_serveOpen noMem taken h hr.1 hr.2)).mono
    rintro ⟨r, pg, t'⟩ s' ⟨hs', D', hopens, hagree⟩
    exact execs_pure ⟨hs', D', .opens hperm hopens, hagree⟩
  rw [Ready, if_neg hopen] at hr
  split_ifs at hr with h2 h3 h4 h5 h6 h7
  case pos =>
    subst h2
    exact serve_handler hperm hopen rfl (execs_of_ends hs (ends_serveSetSize h hr.1 hr.2.1 hr.2.2))
  case pos =>
    subst h3
    exact serve_handler hperm hopen rfl
      (execs_of_ends hs (ends_serveRead h hr.1 hr.2.2.1 hr.2.1 hr.2.2.2))
  case pos =>
    subst h4
    exact serve_handler hperm hopen rfl (execs_of_ends hs (ends_serveWrite h hr.1 hr.2.1 hr.2.2))
  case pos =>
    subst h5
    exact serve_handler hperm hopen rfl
      (execs_of_ends hs (ends_serveStat h hr.1 hr.2.2.1 hr.2.1 hr.2.2.2))
  case pos =>
    subst h6
    exact serve_handler hperm hopen rfl (execs_of_ends hs (ends_serveFlush h hr.1 hr.2))
  case pos =>
    subst h7
    exact serve_handler hperm hopen rfl (execs_of_ends hs (ends_serveRemove h hr.1 hr.2))
  case neg =>
    have hdesk : D.handlers req ipc.page
        = if req = FSREQ_SYNC then (0, ipc.page, D) else (-E_INVAL, ipc.page, D) := by
      rw [Desk.handlers, if_neg h2, if_neg h3, if_neg h4, if_neg h5, if_neg h6, if_neg h7]
    by_cases hsync : req = FSREQ_SYNC
    · subst hsync
      rw [if_pos rfl] at hdesk
      apply serve_handler hperm hopen rfl
      rw [serveSync]
      apply execs_bind
      apply (execs_fsSync hs h.sound.bitmap).mono
      intro _ s' hsynced
      refine execs_pure ⟨hsynced.coherent, D, hdesk, ?_⟩
      rw [hsynced.view]
      exact h
    · rw [if_neg hsync] at hdesk
      have hnone : handlers req = none := by
        rw [handlers, if_neg h2, if_neg h3, if_neg h4, if_neg h5, if_neg h6, if_neg h7, if_neg hsync]
      rw [serve, if_neg hperm, if_neg hopen, hnone]
      exact execs_pure ⟨hs, D, .handles hperm hopen hdesk, h⟩

/-! ### Runs -/

/-- What happens to the server and its clients: a request that can be served is served, and the
clients that share a page map it, drop it or store to it.  A page is mapped again only as long as
its references can be counted. -/
inductive Server.Step : Act × Option Answer → Cache × Server → Cache × Server → Prop where
  | serve {req : Word} {ipc : Fsipc} {noMem taken : Bool} {a : Option Answer} {s s' : Cache}
      {t t' : Server} (hready : ipc.perm &&& PTE_P ≠ 0 → Ready s.view t req ipc)
      (hexec : exec (Fs.serve req ipc noMem t) s = (.ok (a, t'), s')) :
      Server.Step (.serve req ipc noMem taken, a) (s, t) (s', t'.sent (a.bind Answer.pg) taken)
  | map {id : Word} {s : Cache} {t : Server} (hid : t.Holds id)
      (hroom : t.pageref (slotOf id) < 65535) :
      Server.Step (.map id, none) (s, t)
        (s, { t with ppRef := Function.update t.ppRef (slotOf id) (t.ppRef (slotOf id) + 1) })
  | unmap {id : Word} {s : Cache} {t : Server} (hid : t.Holds id) :
      Server.Step (.unmap id, none) (s, t)
        (s, { t with ppRef := Function.update t.ppRef (slotOf id) (t.ppRef (slotOf id) - 1) })
  | poke {id : Word} {fd : FdPage} {s : Cache} {t : Server} (hid : t.Holds id) :
      Server.Step (.poke id fd, none) (s, t)
        (s, { t with fd := Function.update t.fd (slotOf id) fd })

/-- The server has the handles. -/
def Serves (x : Cache × Server) (D : Desk) : Prop :=
  Coherent x.1 ∧ Agree x.1.view x.2 D

theorem Server.Step.means {x : Act × Option Answer} {y y' : Cache × Server} (h : Serves y D)
    (hstep : Server.Step x y y') :
  ∃ D', Desk.Step x D D' ∧ Serves y' D'
  := by
  obtain ⟨hs, h⟩ := h
  cases hstep with
  | serve hready hexec =>
      obtain ⟨hs', D', hmeans, hagree⟩ := (serve_meets _ _ hs h hready).of_eq hexec
      exact ⟨D', hmeans, hs', hagree⟩
  | @map id s t hid hroom =>
      obtain ⟨f, path, -, -, hhandle⟩ := h.held id hid
      have href := hid.1
      have hnext : (t.ppRef (slotOf id) + 1).toNat = t.pageref (slotOf id) - 1 + 1 + 1 := by
        rw [Server.pageref] at hroom href ⊢
        bv_omega
      have hpage := h.page hhandle (t.fd (slotOf id)) (n := t.ppRef (slotOf id) + 1) (by omega)
      rw [Function.update_eq_self, if_neg (by omega), hnext] at hpage
      exact ⟨_, .map hhandle, hs, hpage⟩
  | @unmap id s t hid =>
      obtain ⟨f, path, -, -, hhandle⟩ := h.held id hid
      have href := hid.1
      have hnext : (t.ppRef (slotOf id) - 1).toNat = t.pageref (slotOf id) - 1 := by
        rw [Server.pageref] at href ⊢
        bv_omega
      have hpage := h.page hhandle (t.fd (slotOf id)) (n := t.ppRef (slotOf id) - 1) (by omega)
      rw [Function.update_eq_self, hnext] at hpage
      exact ⟨_, .unmap hhandle, hs, hpage⟩
  | @poke id fd s t hid =>
      obtain ⟨f, path, -, -, hhandle⟩ := h.held id hid
      have href := hid.1
      rw [Server.pageref] at href
      have hpage := h.page hhandle fd (n := t.ppRef (slotOf id)) (by omega)
      rw [Function.update_eq_self, if_neg (by omega)] at hpage
      exact ⟨_, .poke hhandle, hs, hpage⟩

/-- In every run of the file server after its start in which the requests can be served, whatever
the clients share and store, each reply is what it has to be for the handles that the clients hold
and for the volume; and every request that can be served is. -/
theorem service_refines {xs : List (Act × Option Answer)} (hs : Usable s)
    (hrun : Trace Server.Step (s, serveInit) xs (s', t')) :
  ∃ D', Trace Desk.Step (Desk.start (volume s.view)) xs D' ∧ Serves (s', t') D'
    ∧ ∀ req ipc noMem taken, (ipc.perm &&& PTE_P ≠ 0 → Ready s'.view t' req ipc) →
      ∃ a y, Server.Step (.serve req ipc noMem taken, a) (s', t') y
  := by
  have hstart : Serves (s, serveInit) (Desk.start (volume s.view)) := ⟨hs.1, agree_start hs.2⟩
  obtain ⟨D', hmeans, hserves⟩ := hrun.matched (fun _ _ _ _ h hstep => hstep.means h) hstart
  refine ⟨D', hmeans, hserves, ?_⟩
  intro req ipc noMem taken hready
  obtain ⟨⟨a, t''⟩, s'', hexec, -⟩ := serve_meets noMem taken hserves.1 hserves.2 hready
  exact ⟨a, _, .serve hready hexec⟩

/-! ### A request on the small disk -/

/-- A request to create and open the file `b`. -/
def openB : Fsipc where
  perm := PTE_P ||| PTE_U ||| PTE_W
  page := write32 (writeBytes (fun _ => 0) 0 [SLASH, 0x62]) MAXPATHLEN O_CREAT

theorem reqPath_openB :
  reqPath openB.page = [SLASH, 0x62]
  := by
  have hmap : (List.range (MAXPATHLEN - 1)).map openB.page
      = SLASH :: 0x62 :: 0 :: (List.range 1020).map (fun i => openB.page (i + 3)) := by
    rw [show MAXPATHLEN - 1 = 1020 + 1 + 1 + 1 from rfl, List.range_succ_eq_map, List.range_succ_eq_map,
      List.range_succ_eq_map]
    simp only [List.map_cons, List.map_map, Function.comp_def]
    rfl
  rw [reqPath, hmap]
  rfl

theorem ready_openB {rest : Memory} :
  Ready (tiny freeRest rest) serveInit FSREQ_OPEN openB
  := by
  have homode : reqOmode openB.page = O_CREAT := read32_write32 _ _ _
  rw [Ready, if_pos rfl]
  refine ⟨by rw [Fsipc.Readable, openB]; decide, ?_, ?_, ?_⟩
  · rw [reqPath_openB]
    exact fun _ _ => ready_tiny.record _ rfl
  · rw [homode]
    exact fun htrunc => absurd rfl htrunc
  · intro i hi _
    change (BitVec.ofNat 32 i).toNat + MAXOPEN < 2 ^ 31
    rw [BitVec.toNat_ofNat]
    simp only [MAXOPEN] at hi ⊢
    omega

/-- On the small disk a file is created and opened. -/
theorem service_refines_tiny :
  ∃ a y D', Trace Server.Step (Cache.booted (tiny freeRest (fun _ => 0)), serveInit)
      [(.serve FSREQ_OPEN openB false true, a)] y
    ∧ Trace Desk.Step (Desk.start (volume (Cache.booted (tiny freeRest (fun _ => 0))).view))
      [(.serve FSREQ_OPEN openB false true, a)] D'
    ∧ Serves y D'
  := by
  have hs : Usable (Cache.booted (tiny freeRest (fun _ => 0))) := usable_tiny
  have hready : Ready (Cache.booted (tiny freeRest (fun _ => 0))).view serveInit FSREQ_OPEN openB := by
    rw [view_booted]
    exact ready_openB
  obtain ⟨⟨a, t⟩, s, hexec, -⟩ := serve_meets false true hs.1 (agree_start hs.2)
    (fun _ => hready)
  have hstep : Server.Step (.serve _ _ _ true, _) _ _ := .serve (fun _ => hready) hexec
  have hrun := Trace.cons hstep (.nil _)
  obtain ⟨D', hmeans, hserves, -⟩ := service_refines hs hrun
  exact ⟨a, _, D', hrun, hmeans, hserves⟩

end Jos.Fs
