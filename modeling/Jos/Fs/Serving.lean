import Mathlib.Data.List.TakeWhile
import Jos.Fs.Desk
import Jos.Fs.Reboot

/-!
# The file server does what it is for

The slots of `opentab` whose pages are shared with clients are the handles, and a handle leads to the
file that its path leads to.  Every request that is served, and every change of the pages and of the
places where they are mapped, means what it means on the handles.
-/

namespace Jos.Fs

open Bytes Io NameTree

variable {m m' : Memory} {t : Server} {D : Desk} {hd : Handle} {f i : Nat} {id : Word}
  {path : List Byte} {omode : Word} {ipc : Fsipc} {noMem taken : Bool}

/-! ### Slots and handles -/

/-- Clients share the page of the slot with this id. -/
def Server.Holds (t : Server) (id : Word) : Prop :=
  2 ≤ t.pageref (slotOf id) ∧ (t.opentab (slotOf id)).o_fileid = id

/-- The server has the volume and the handles. -/
structure Agree (m : Memory) (t : Server) (D : Desk) : Prop where
  sound : Sound m
  volume : D.volume = volume m
  ids : ∀ i < MAXOPEN, slotOf (t.opentab i).o_fileid = i
  held : ∀ id, t.Holds id → ∃ f path, (t.opentab (slotOf id)).o_file = some f
    ∧ resolve (child m) s_root path = some f
    ∧ D.handles id = some ⟨path, (t.fd (slotOf id)).fd_offset, t.pageref (slotOf id) - 1⟩
  free : ∀ id, ¬ t.Holds id → D.handles id = none
  given : ∀ id ∈ D.given, id.toNat ≤ (t.opentab (slotOf id)).o_fileid.toNat

theorem slotOf_lt (id : Word) :
  slotOf id < MAXOPEN
  := Nat.mod_lt _ (by decide)

/-- A handle is one that clients hold. -/
theorem Agree.holds (h : Agree m t D) (hid : D.handles id = some hd) :
  t.Holds id
  := by
  by_contra hno
  rw [h.free id hno] at hid
  cases hid

theorem Agree.handle (h : Agree m t D) (hid : D.handles id = some hd) :
  ∃ f, (t.opentab (slotOf id)).o_file = some f ∧ resolve (child m) s_root hd.path = some f
    ∧ hd.offset = (t.fd (slotOf id)).fd_offset ∧ hd.holders = t.pageref (slotOf id) - 1
  := by
  obtain ⟨f, path, hf, hpath, heq⟩ := h.held id (h.holds hid)
  rw [hid] at heq
  cases heq
  exact ⟨f, hf, hpath, rfl, rfl⟩

/-- The server after a start has no handles. -/
theorem agree_start (hm : Sound m) :
  Agree m serveInit (Desk.start (volume m))
  := by
  constructor
  case sound => exact hm
  case volume => rfl
  case ids =>
    intro i hi
    have hlt : i < 2 ^ 32 := Nat.lt_trans hi (by decide)
    have hnat : (BitVec.ofNat 32 i).toNat = i := by
      rw [BitVec.toNat_ofNat, Nat.mod_eq_of_lt hlt]
    change (BitVec.ofNat 32 i).toNat % MAXOPEN = i
    rw [hnat, Nat.mod_eq_of_lt hi]
  case held => exact fun id hid => absurd hid.1 (Nat.not_succ_le_zero 1)
  case free => exact fun _ _ => rfl
  case given => exact fun id hid => absurd hid (List.not_mem_nil)

/-- The files change, and all paths still lead to where they led. -/
theorem Agree.files (h : Agree m t D) (hm' : Sound m')
    (hkept : ∀ hd id, D.handles id = some hd → ∀ g, resolve (child m) s_root hd.path = some g →
      resolve (child m') s_root hd.path = some g) :
  Agree m' t { D with volume := Fs.volume m' }
  := by
  constructor
  case sound => exact hm'
  case volume => rfl
  case ids => exact h.ids
  case held =>
    intro id hid
    obtain ⟨f, path, hf, hpath, heq⟩ := h.held id hid
    exact ⟨f, path, hf, hkept _ id heq f hpath, heq⟩
  case free => exact h.free
  case given => exact h.given

/-- The page of a handle, or the number of places where it is mapped, changes. -/
theorem Agree.page (h : Agree m t D) (hid : D.handles id = some hd) (fd : FdPage) {n : BitVec 16}
    (hn : 1 ≤ n.toNat) :
  Agree m { t with
      ppRef := Function.update t.ppRef (slotOf id) n
      fd := Function.update t.fd (slotOf id) fd }
    (D.setHandle id (if n.toNat = 1 then none else some ⟨hd.path, fd.fd_offset, n.toNat - 1⟩))
  := by
  obtain ⟨f, hf, hpath, -, -⟩ := h.handle hid
  obtain ⟨href, hfileid⟩ := h.holds hid
  constructor
  case sound => exact h.sound
  case volume => exact h.volume
  case ids => exact h.ids
  case given => exact h.given
  case held =>
    intro id' ⟨href', hfileid'⟩
    dsimp only [Server.pageref] at href' hfileid' ⊢
    by_cases hslot : slotOf id' = slotOf id
    · have heq : id' = id := by
        rw [← hfileid', hslot, hfileid]
      subst heq
      rw [Function.update_self] at href'
      refine ⟨f, hd.path, hf, hpath, ?_⟩
      simp only [Desk.setHandle, Function.update_self]
      rw [if_neg (by omega)]
    · have hne : id' ≠ id := fun heq => hslot (congrArg slotOf heq)
      rw [Function.update_of_ne hslot] at href'
      simp only [Desk.setHandle, Function.update_of_ne hslot, Function.update_of_ne hne]
      exact h.held id' ⟨href', hfileid'⟩
  case free =>
    intro id' hno
    by_cases heq : id' = id
    · subst heq
      have hone : n.toNat = 1 := by
        by_contra hne
        apply hno
        refine ⟨?_, hfileid⟩
        dsimp only [Server.pageref]
        rw [Function.update_self]
        omega
      simp only [Desk.setHandle, Function.update_self]
      rw [if_pos hone]
    · simp only [Desk.setHandle, Function.update_of_ne heq]
      apply h.free id'
      rintro ⟨href', hfileid'⟩
      apply hno
      refine ⟨?_, hfileid'⟩
      have hslot : slotOf id' ≠ slotOf id := by
        intro hslot
        apply heq
        rw [← hfileid', hslot, hfileid]
      dsimp only [Server.pageref]
      rw [Function.update_of_ne hslot]
      exact href'

/-- The seek position of a handle moves. -/
theorem Agree.seek (h : Agree m t D) (hid : D.handles id = some hd) (offset : Word) :
  Agree m (t.seek (slotOf id) offset) (D.setHandle id (some { hd with offset := offset }))
  := by
  obtain ⟨f, -, -, -, hholders⟩ := h.handle hid
  have href := (h.holds hid).1
  rw [Server.pageref] at href hholders
  have hpage := h.page hid { t.fd (slotOf id) with fd_offset := offset }
    (n := t.ppRef (slotOf id)) (by omega)
  rw [Function.update_eq_self, if_neg (by omega), ← hholders] at hpage
  exact hpage

/-! ### Taking a slot -/

theorem slotOf_add_MAXOPEN (id : Word) :
  slotOf (id + BitVec.ofNat 32 MAXOPEN) = slotOf id
  := by
  rw [slotOf, slotOf, BitVec.toNat_add, BitVec.toNat_ofNat]
  simp only [MAXOPEN]
  omega

theorem slotOf_add (h : id.toNat + MAXOPEN < 2 ^ 32) :
  (id + BitVec.ofNat 32 MAXOPEN).toNat = id.toNat + MAXOPEN
    ∧ slotOf (id + BitVec.ofNat 32 MAXOPEN) = slotOf id
  := by
  have hnat : (id + BitVec.ofNat 32 MAXOPEN).toNat = id.toNat + MAXOPEN := by
    rw [BitVec.toNat_add, BitVec.toNat_ofNat, Nat.mod_eq_of_lt (a := MAXOPEN) (by decide),
      Nat.mod_eq_of_lt h]
  exact ⟨hnat, slotOf_add_MAXOPEN id⟩

/-- A slot that no client shares is taken. -/
theorem Agree.take (h : Agree m t D) (hi : i < MAXOPEN) (hidle : t.pageref i ≤ 1)
    (hlast : (t.opentab i).o_fileid.toNat + MAXOPEN < 2 ^ 32) :
  Agree m (t.take i) D ∧ (t.take i).pageref i = 1 ∧
    ((t.take i).opentab i).o_fileid ∉ D.given
  := by
  obtain ⟨hnat, hslot⟩ := slotOf_add hlast
  have hown := h.ids i hi
  -- the handles are in other slots, before and after
  have hholds : ∀ id, (t.take i).Holds id ↔ t.Holds id := by
    intro id
    by_cases heq : slotOf id = i
    · refine iff_of_false ?_ ?_
      · rintro ⟨href, -⟩
        rw [heq, Server.take_pageref_self] at href
        omega
      · rintro ⟨href, -⟩
        rw [heq] at href
        omega
    · rw [Server.Holds, Server.Holds, Server.take_pageref heq, Server.take_opentab heq]
  refine ⟨?_, ?_, ?_⟩
  · constructor
    case sound => exact h.sound
    case volume => exact h.volume
    case ids =>
      intro j hj
      by_cases heq : j = i
      · subst heq
        rw [Server.take_fileid_self, hslot, hown]
      · rw [Server.take_opentab heq]
        exact h.ids j hj
    case held =>
      intro id hid
      rw [hholds] at hid
      have heq : slotOf id ≠ i := by
        rintro rfl
        have := hid.1
        omega
      rw [Server.take_opentab heq, Server.take_fd heq, Server.take_pageref heq]
      exact h.held id hid
    case free =>
      intro id hno
      rw [hholds] at hno
      exact h.free id hno
    case given =>
      intro id hid
      have hle := h.given id hid
      by_cases heq : slotOf id = i
      · rw [heq] at hle ⊢
        rw [Server.take_fileid_self, hnat]
        omega
      · rw [Server.take_opentab heq]
        exact hle
  · exact Server.take_pageref_self t i
  · intro hin
    have hle := h.given _ hin
    rw [Server.take_fileid_self, hslot, hown, hnat] at hle
    simp only [MAXOPEN] at hle
    omega

/-- The page that is sent is mapped by the client if it takes it. -/
def Server.sent (t : Server) (pg : Option Nat) (taken : Bool) : Server :=
  match pg with
  | some i => if taken then { t with ppRef := Function.update t.ppRef i (t.ppRef i + 1) } else t
  | none => t

@[simp] theorem Server.sent_opentab (t : Server) (pg : Option Nat) (taken : Bool) :
  (t.sent pg taken).opentab = t.opentab
  := by
  cases pg with
  | none => rfl
  | some i => cases taken <;> rfl

@[simp] theorem Server.sent_fd (t : Server) (pg : Option Nat) (taken : Bool) :
  (t.sent pg taken).fd = t.fd
  := by
  cases pg with
  | none => rfl
  | some i => cases taken <;> rfl

/-- A page that only the server maps has two references when a client takes it. -/
theorem Server.sent_pageref_self (href : t.pageref i = 1) (taken : Bool) :
  (t.sent (some i) taken).pageref i = if taken then 2 else 1
  := by
  cases taken with
  | false => exact href
  | true =>
      rw [pageref] at href
      simp only [pageref, sent, if_true, Function.update_self]
      rw [BitVec.toNat_add, href]
      rfl

theorem Server.sent_pageref {i j : Nat} (h : j ≠ i) :
  (t.sent (some i) taken).pageref j = t.pageref j
  := by
  cases taken with
  | false => rfl
  | true => simp only [pageref, sent, if_true, Function.update_of_ne h]

theorem Server.holds_opened (hne : slotOf id ≠ i) :
  ((t.opened i f omode).sent (some i) taken).Holds id ↔ t.Holds id
  := by
  rw [Holds, Holds, sent_opentab, opened_fileid, sent_pageref hne, opened_pageref]

theorem Server.holds_opened_self (hslot : slotOf id = i) (href : t.pageref i = 1) :
  ((t.opened i f omode).sent (some i) taken).Holds id
    ↔ taken = true ∧ id = (t.opentab i).o_fileid
  := by
  have href' : (t.opened i f omode).pageref i = 1 := by rw [opened_pageref, href]
  rw [Holds, sent_opentab, opened_fileid, hslot, sent_pageref_self href']
  cases taken with
  | true => simp [eq_comm]
  | false => simp

/-- A slot that was taken is filled in, and its page is sent. -/
theorem Agree.opened {cs : List (List Byte)} (omode : Word) (taken : Bool) (h : Agree m t D)
    (hi : i < MAXOPEN) (href : t.pageref i = 1) (hnew : (t.opentab i).o_fileid ∉ D.given)
    (hoff : (t.fd i).fd_offset = 0) (hf : resolve (child m) s_root cs = some f) :
  Agree m ((t.opened i f omode).sent (some i) taken)
    { volume := D.volume
      handles := if taken then
        Function.update D.handles (t.opentab i).o_fileid (some ⟨cs, 0, 1⟩) else D.handles
      given := (t.opentab i).o_fileid :: D.given }
  := by
  have hown := h.ids i hi
  generalize hfid : (t.opentab i).o_fileid = fid at *
  constructor
  case sound => exact h.sound
  case volume => exact h.volume
  case ids =>
    intro j hj
    rw [Server.sent_opentab, Server.opened_fileid]
    exact h.ids j hj
  case given =>
    intro id' hin
    rw [Server.sent_opentab, Server.opened_fileid]
    rcases List.mem_cons.mp hin with rfl | hin
    · rw [hown, hfid]
    · exact h.given id' hin
  case held =>
    intro id' hid
    by_cases heq : slotOf id' = i
    · rw [Server.holds_opened_self heq href, hfid] at hid
      obtain ⟨rfl, rfl⟩ := hid
      refine ⟨f, cs, ?_, hf, ?_⟩
      · simp [Server.opened, heq]
      · have href' : (t.opened i f omode).pageref i = 1 := by rw [Server.opened_pageref, href]
        rw [heq, Server.sent_pageref_self href']
        simp [Server.opened, hoff]
    · have hne : id' ≠ fid := by
        rintro rfl
        exact heq hown
      obtain ⟨g, path, hg, hpath, hhandle⟩ := h.held id' ((Server.holds_opened heq).mp hid)
      refine ⟨g, path, ?_, hpath, ?_⟩
      · rw [Server.sent_opentab, Server.opened_opentab heq]
        exact hg
      · rw [Server.sent_fd, Server.sent_pageref heq, Server.opened_fd heq]
        cases taken with
        | true => simpa [Function.update_of_ne hne] using hhandle
        | false => exact hhandle
  case free =>
    intro id' hno
    by_cases heq : slotOf id' = i
    · rw [Server.holds_opened_self heq href, hfid] at hno
      have hnone : D.handles id' = none := by
        apply h.free
        rintro ⟨href', -⟩
        rw [heq, href] at href'
        omega
      cases taken with
      | true =>
          have hne : id' ≠ fid := fun he => hno ⟨rfl, he⟩
          simpa [Function.update_of_ne hne] using hnone
      | false => exact hnone
    · rw [Server.holds_opened heq] at hno
      have hne : id' ≠ fid := by
        rintro rfl
        exact heq hown
      cases taken with
      | true => simpa [Function.update_of_ne hne] using h.free id' hno
      | false => exact h.free id' hno

/-! ### Opening a path -/

theorem code_cases (V : Volume) (done cs : List (List Byte)) :
  V.code done cs = 0 ∨ V.code done cs = -E_BAD_PATH ∨ V.code done cs = -E_NOT_FOUND
  := by
  induction cs generalizing done with
  | nil => exact .inl rfl
  | cons c cs ih =>
      rw [Volume.code]
      split
      · exact .inr (.inl rfl)
      · split
        · exact ih _
        · exact .inr (.inr rfl)

/-- Only a path that is found exists already. -/
theorem create_exists {V : Volume} {cs : List (List Byte)} (h : (V.create cs).1 = -E_FILE_EXISTS) :
  V.code [] cs = 0 ∧ V.create cs = (-E_FILE_EXISTS, V)
  := by
  have hcode : V.code [] cs ≠ -E_FILE_EXISTS := by
    rcases code_cases V [] cs with heq | heq | heq
    all_goals
      rw [heq]
      decide
  rw [Volume.create] at h ⊢
  split at h
  case isTrue hzero => exact ⟨hzero, if_pos hzero⟩
  case isFalse =>
    split at h
    case isTrue => cases h
    case isFalse => exact absurd h hcode

/-- What a path leads to after it was created is a file. -/
theorem createOrOpen_file {V : Volume} {cs : List (List Byte)} (omode : Word)
    (hdir : V cs ≠ some .dir) :
  (V.createOrOpen cs omode).2 cs ≠ some .dir
  := by
  have hcreate : (V.create cs).2 cs ≠ some .dir := by
    rw [Volume.create]
    split
    · exact hdir
    · split
      · dsimp only
        rw [Function.update_self]
        intro heq
        cases heq
      · exact hdir
  rw [Volume.createOrOpen]
  split
  · split
    · exact hdir
    · exact hcreate
  · exact hdir

theorem createOrOpen_linked (hm : Sound m) (hpath : 0 ∉ path)
    (hrecord : omode &&& O_CREAT ≠ 0 → resolve (child m) s_root (components path) = none →
      ∀ d, parent m s_root (components path) = some d → ∃ e, Record m d e ∧ m e = 0) :
  (createOrOpen path omode).Ends valid m
    (Linked m (components path) ((volume m).createOrOpen (components path) omode)) False
  := by
  rw [createOrOpen, Volume.createOrOpen]
  by_cases hcreat : omode &&& O_CREAT ≠ 0
  · rw [if_pos hcreat, if_pos hcreat, ends_bind]
    apply (ends_fileCreate hm hpath (hrecord hcreat)).mono _ id
    intro r m₁ h₁
    cases r with
    | ok f =>
        have hok : ((volume m).create (components path)).1 = 0 := by
          rw [← h₁.volume]
          rfl
        rw [if_neg (by rw [hok]; exact fun h => absurd h.2 (by decide)), ends_pure]
        exact h₁
    | error c =>
        have hc : ((volume m).create (components path)).1 = c := by
          rw [← h₁.volume]
          rfl
        dsimp only
        rw [hc]
        by_cases hexists : omode &&& O_EXCL = 0 ∧ c = -E_FILE_EXISTS
        · rw [if_pos hexists, if_pos hexists]
          obtain ⟨hzero, hsame⟩ := create_exists (hc.trans hexists.2)
          have hvolume : Fs.volume m₁ = Fs.volume m := by
            have heq := h₁.volume
            rw [hsame] at heq
            exact congrArg Prod.snd heq
          apply (fileOpen_linked h₁.sound hpath).mono _ id
          rintro r m₂ ⟨hsound, hvol, hfound, hfailed, hkept⟩
          rw [hvolume, hzero] at hvol
          exact ⟨hsound, hvol, hfound, hfailed, fun q g hq => hkept q g (h₁.kept q g hq)⟩
        · rw [if_neg hexists, if_neg hexists, ends_pure]
          exact h₁
  · rw [if_neg hcreat, if_neg hcreat]
    exact fileOpen_linked hm hpath

/-- A path is opened as on the volume. -/
theorem openPath_linked (hm : Sound m) (hpath : 0 ∉ path)
    (hrecord : omode &&& O_CREAT ≠ 0 → resolve (child m) s_root (components path) = none →
      ∀ d, parent m s_root (components path) = some d → ∃ e, Record m d e ∧ m e = 0)
    (htrunc : omode &&& O_TRUNC ≠ 0 → volume m (components path) ≠ some .dir) :
  (openPath path omode).Ends valid m
    (Linked m (components path) ((volume m).openPath (components path) omode)) False
  := by
  rw [openPath, ends_bind]
  apply (createOrOpen_linked hm hpath hrecord).mono _ id
  intro r m₁ h₁
  have hpair := h₁.volume
  cases r with
  | error c =>
      rw [ends_pure]
      refine ⟨h₁.sound, ?_, h₁.found, h₁.failed, h₁.kept⟩
      rw [Volume.openPath, ← hpair]
      dsimp only
      rw [if_neg (fun h => h₁.failed c rfl h.1)]
  | ok f =>
      have hf := h₁.found f rfl
      dsimp only
      rw [ends_ite]
      constructor
      · intro ht
        have hnode : volume m₁ (components path) = some (node m₁ f) := by
          rw [volume, hf, Option.map_some]
        have hreg : fileType m₁ f ≠ FTYPE_DIR := by
          intro hdir
          rw [node_dir.mpr hdir] at hnode
          apply createOrOpen_file omode (htrunc ht)
          rw [← hpair]
          exact hnode
        rw [ends_bind]
        apply (shortens_file h₁.sound (h₁.sound.nameTree.resolve_in .root hf) hreg
          (Nat.zero_le _)).mono _ id
        rintro r m₂ ⟨rfl, h₂⟩
        rw [if_neg (by decide), ends_pure]
        have hresolve := h₂.moved.resolve h₁.sound (h₁.sound.nameTree.resolve_in .root hf) hreg
        constructor
        case sound => exact h₂.sound
        case volume =>
          rw [Volume.openPath, ← hpair, h₂.volume h₁.sound hf hreg]
          dsimp only [status]
          rw [if_pos ⟨rfl, ht⟩]
          rfl
        case found =>
          rintro _ ⟨⟩
          rw [hresolve]
          exact hf
        case failed =>
          intro c heq
          cases heq
        case kept =>
          intro q g hq
          rw [hresolve]
          exact h₁.kept q g hq
      · intro ht
        rw [ends_pure]
        refine ⟨h₁.sound, ?_, h₁.found, h₁.failed, h₁.kept⟩
        rw [Volume.openPath, ← hpair]
        dsimp only
        rw [if_neg (fun h => ht h.2)]

/-! ### Requests on a handle -/

/-- The slot of the request has been used: a slot that has not been, has no page and no file, but an
id that can be asked for. -/
def Server.Used (t : Server) (ipc : Fsipc) : Prop :=
  ¬ (t.pageref (slotOf (reqFileid ipc.page)) = 0
    ∧ (t.opentab (slotOf (reqFileid ipc.page))).o_fileid = reqFileid ipc.page)

/-- An id of a slot that has been used is found if clients share its page. -/
theorem openfileLookup_eq (hused : t.Used ipc) :
  (t.Holds (reqFileid ipc.page) → openfileLookup (reqFileid ipc.page) t
      = .ok (slotOf (reqFileid ipc.page)))
    ∧ (¬ t.Holds (reqFileid ipc.page) → openfileLookup (reqFileid ipc.page) t = .error (-E_INVAL))
  := by
  constructor
  · rintro ⟨href, hid⟩
    rw [openfileLookup, if_neg]
    rintro (hone | hne)
    · omega
    · exact hne hid
  · intro hno
    rw [openfileLookup, if_pos]
    by_contra hcond
    obtain ⟨hone, hid⟩ := not_or.mp hcond
    rw [not_not] at hid
    apply hno
    refine ⟨?_, hid⟩
    by_contra hlt
    apply hused
    refine ⟨?_, hid⟩
    omega

theorem fd_eq_seek (t : Server) (i : Nat) :
  t.seek i (t.fd i).fd_offset = t
  := by
  rw [Server.seek, Function.update_eq_self]

/-- What a request does to the file of its handle. -/
theorem ends_withOpen {op : Memory → Nat → Nat → Io Handled} {g : Handle → List Byte → Effect}
    (h : Agree m t D) (hread : ipc.perm &&& PTE_U ≠ 0) (hused : t.Used ipc)
    (hop : ∀ f hd, (t.opentab (slotOf (reqFileid ipc.page))).o_file = some f →
      t.Holds (reqFileid ipc.page) → resolve (child m) s_root hd.path = some f →
      hd.offset = (t.fd (slotOf (reqFileid ipc.page))).fd_offset → fileType m f ≠ FTYPE_DIR →
      Live m f → (op ipc.page (slotOf (reqFileid ipc.page)) f).Ends valid m
        (fun x m' => ∃ offset bytes, g hd (contents m f) = (x.1, x.2.1, offset, bytes)
          ∧ x.2.2 = t.seek (slotOf (reqFileid ipc.page)) offset ∧ Rewritten m m' f bytes) False)
    (hdir : ∀ f, (t.opentab (slotOf (reqFileid ipc.page))).o_file = some f →
      t.Holds (reqFileid ipc.page) → fileType m f = FTYPE_DIR → Live m f →
      (op ipc.page (slotOf (reqFileid ipc.page)) f).Ends valid m
        (fun x m' => x = (0, ipc.page, t) ∧ m' = m) False) :
  (withOpen ipc t op).Ends valid m
    (fun x m' => ∃ D', D.onHandle ipc.page g = (x.1, x.2.1, D') ∧ Agree m' x.2.2 D') False
  := by
  obtain ⟨hfound, hmissing⟩ := openfileLookup_eq hused
  rw [withOpen, Fsipc.get, if_pos hread, ends_bind, ends_pure, Desk.onHandle]
  by_cases hid : t.Holds (reqFileid ipc.page)
  · obtain ⟨f, path, hf, hpath, hhandle⟩ := h.held _ hid
    have hlive := h.sound.nameTree.resolve_in .root hpath
    rw [hfound hid, hhandle, h.volume]
    have hnode : volume m path = some (node m f) := by
      rw [volume, hpath, Option.map_some]
    dsimp only
    rw [OpenFile.file, hf, ends_bind, ends_pure, hnode]
    by_cases htype : fileType m f = FTYPE_DIR
    · apply (hdir f hf hid htype hlive).mono _ id
      rintro _ _ ⟨rfl, rfl⟩
      rw [node_dir.mpr htype]
      exact ⟨D, rfl, h⟩
    · apply (hop f ⟨path, (t.fd (slotOf (reqFileid ipc.page))).fd_offset,
        t.pageref (slotOf (reqFileid ipc.page)) - 1⟩ hf hid hpath rfl htype hlive).mono _ id
      rintro ⟨r, page, t'⟩ m' ⟨offset, bytes, heq, rfl, hr⟩
      rw [node_file htype]
      dsimp only at heq ⊢
      rw [heq]
      refine ⟨_, rfl, ?_⟩
      have hfiles := h.files hr.sound (by
        intro hd' id' _ g' hg'
        rw [hr.moved.resolve h.sound hlive htype]
        exact hg')
      rw [hr.volume h.sound hpath htype] at hfiles
      exact hfiles.seek hhandle offset
  · rw [hmissing hid, h.free _ hid]
    exact (ends_pure _).mpr ⟨D, rfl, h⟩

/-- What has to hold of the file of the request. -/
def Server.OnFile (t : Server) (ipc : Fsipc) (P : Nat → Prop) : Prop :=
  ∀ f, t.Holds (reqFileid ipc.page) → (t.opentab (slotOf (reqFileid ipc.page))).o_file = some f → P f

section Handlers

variable (h : Agree m t D) (hread : ipc.perm &&& PTE_U ≠ 0) (hused : t.Used ipc)
include h hread hused

theorem ends_serveSetSize
    (hfits : t.OnFile ipc (fun f => fileType m f ≠ FTYPE_DIR ∧ (reqN ipc.page).toNat ≤ fileSize m f)) :
  (serveSetSize ipc t).Ends valid m
    (fun x m' => ∃ D', D.setSize ipc.page = (x.1, x.2.1, D') ∧ Agree m' x.2.2 D') False
  := by
  apply ends_withOpen h hread hused
  · intro f hd hf hid hpath hoff htype hlive
    rw [ends_bind]
    apply (shortens_file h.sound hlive htype (hfits f hid hf).2).mono _ id
    rintro r m' ⟨rfl, hr⟩
    exact (ends_pure _).mpr ⟨_, _, rfl, by rw [hoff, fd_eq_seek], hr⟩
  · exact fun f hf hid htype _ => absurd htype (hfits f hid hf).1

theorem ends_serveRead (hwrite : ipc.perm &&& PTE_W ≠ 0)
    (hfits : t.OnFile ipc (fun f => fileType m f ≠ FTYPE_DIR
      ∧ (t.fd (slotOf (reqFileid ipc.page))).fd_offset.toNat < 2 ^ 31)) :
  (serveRead ipc t).Ends valid m
    (fun x m' => ∃ D', D.read ipc.page = (x.1, x.2.1, D') ∧ Agree m' x.2.2 D') False
  := by
  apply ends_withOpen h hread hused
  · intro f hd hf hid hpath hoff htype hlive
    rw [ends_bind]
    apply (reads_file h.sound hlive htype (hfits f hid hf).2).mono _ id
    rintro _ m' ⟨rfl, hr⟩
    dsimp only
    have hpage : (BitVec.ofNat 32 PGSIZE : Word).toNat = PGSIZE := rfl
    rw [Fsipc.put, if_pos (.inr hwrite), ends_bind, ends_pure, minU_toNat, hpage, ← hoff, ends_ite]
    constructor
    · exact fun _ => (ends_pure _).mpr ⟨_, _, rfl, rfl, hr⟩
    · intro hzero
      refine (ends_pure _).mpr ⟨_, _, rfl, ?_, hr⟩
      have heq := BitVec.le_zero_iff.mp (BitVec.not_lt.mp hzero)
      rw [heq, BitVec.add_zero, hoff, fd_eq_seek]
  · exact fun f hf hid htype _ => absurd htype (hfits f hid hf).1

theorem ends_serveWrite
    (hfits : t.OnFile ipc (fun f => fileType m f ≠ FTYPE_DIR
      ∧ (t.fd (slotOf (reqFileid ipc.page))).fd_offset.toNat ≤ fileSize m f
      ∧ (t.fd (slotOf (reqFileid ipc.page))).fd_offset.toNat + min (reqN ipc.page).toNat BUFSIZE
        ≤ MAXFILESIZE
      ∧ missing m f (blockCount (newSize m f (reqBuf ipc.page (min (reqN ipc.page).toNat BUFSIZE))
        (t.fd (slotOf (reqFileid ipc.page))).fd_offset)) ≤ avail m)) :
  (serveWrite ipc t).Ends valid m
    (fun x m' => ∃ D', D.write ipc.page = (x.1, x.2.1, D') ∧ Agree m' x.2.2 D') False
  := by
  apply ends_withOpen h hread hused
  · intro f hd hf hid hpath hoff htype hlive
    obtain ⟨-, hstart, hend, hroom⟩ := hfits f hid hf
    have hlength : ∀ n, (reqBuf ipc.page n).length = n := by
      intro n
      rw [reqBuf, List.length_map, List.length_range]
    dsimp only
    rw [ends_bind, minU_toNat]
    apply (writes_file h.sound hlive htype hstart (by rw [hlength]; exact hend) hroom).mono _ id
    rintro r m' ⟨rfl, hr⟩
    rw [← hoff] at hr ⊢
    exact (ends_pure _).mpr ⟨_, _, rfl, rfl, hr⟩
  · exact fun f hf hid htype _ => absurd htype (hfits f hid hf).1

theorem ends_serveFlush :
  (serveFlush ipc t).Ends valid m
    (fun x m' => ∃ D', D.flush ipc.page = (x.1, x.2.1, D') ∧ Agree m' x.2.2 D') False
  := by
  have hflush : ∀ f, Live m f → (Fs.fileFlush f).run valid m = .ret () m := fun f hf =>
    (runs_fileFlush (h.sound.fileOk hf) (h.sound.size f hf)).1
  apply ends_withOpen h hread hused
  · intro f hd hf hid hpath hoff htype hlive
    rw [ends_bind, ends_of_run (hflush f hlive), ends_pure]
    exact ⟨_, _, rfl, by rw [hoff, fd_eq_seek], h.sound, Moved.refl (h.sound.fileOk hlive), rfl⟩
  · intro f hf hid htype hlive
    rw [ends_bind, ends_of_run (hflush f hlive), ends_pure]
    exact ⟨rfl, rfl⟩

omit h hread hused in
/-- The string at an address is loaded up to its end. -/
theorem ends_getString {name : List Byte} {a n : Nat} {Q : List Byte → Memory → Prop} {E : Prop}
    (hname : nameIs m a name = true) (hzero : 0 ∉ name) (hlt : name.length < n)
    (hok : ∀ i ≤ name.length, valid m (a + i) = true) (hQ : Q name m) :
  (getString a n).Ends valid m Q E
  := by
  induction name generalizing a n Q with
  | nil =>
      cases n with
      | zero => exact absurd hlt (Nat.not_lt_zero _)
      | succ n =>
          rw [getString, ends_bind, ends_get8]
          refine ⟨hok 0 (Nat.le_refl 0), ?_⟩
          rw [if_pos (beq_iff_eq.mp hname), ends_pure]
          exact hQ
  | cons c cs ih =>
      cases n with
      | zero => exact absurd hlt (Nat.not_lt_zero _)
      | succ n =>
          rw [nameIs, Bool.and_eq_true, beq_iff_eq] at hname
          rw [getString, ends_bind, ends_get8]
          refine ⟨hok 0 (Nat.zero_le _), ?_⟩
          rw [if_neg, ends_bind]
          · apply ih hname.2
            · exact fun hin => hzero (List.mem_cons_of_mem _ hin)
            · exact Nat.lt_of_succ_lt_succ hlt
            · intro i hi
              have hvalid := hok (i + 1) (Nat.succ_le_succ hi)
              rw [Nat.add_comm i 1, ← Nat.add_assoc] at hvalid
              exact hvalid
            · rw [ends_pure, hname.1]
              exact hQ
          · rw [hname.1]
            rintro rfl
            exact hzero (List.mem_cons_self ..)

theorem ends_serveStat (hwrite : ipc.perm &&& PTE_W ≠ 0)
    (hfits : t.OnFile ipc (fun f => fileType m f ≠ FTYPE_DIR)) :
  (serveStat ipc t).Ends valid m
    (fun x m' => ∃ D', D.stat ipc.page = (x.1, x.2.1, D') ∧ Agree m' x.2.2 D') False
  := by
  apply ends_withOpen h hread hused
  · intro f hd hf hid hpath hoff htype hlive
    have hok := h.sound.fileOk hlive
    -- the root is a directory, so that the path has a last name
    obtain ⟨p, name, hsplit⟩ : ∃ p name, hd.path = p ++ [name] := by
      apply (eq_nil_or_concat hd.path).resolve_left
      intro hnil
      rw [hnil, resolve_nil] at hpath
      obtain rfl := Option.some.inj hpath
      exact htype h.sound.root_dir
    rw [hsplit, resolve_concat, Option.bind_eq_some_iff] at hpath
    obtain ⟨d, hd', hc⟩ := hpath
    have hdlive := h.sound.nameTree.resolve_in .root hd'
    obtain ⟨-, hname, he, hin⟩ := child_some h.sound.toTidy hdlive hc
    have hshort := hname.short
    rw [ends_bind, f_name]
    apply ends_getString hin hname.nonzero hshort
    · intro i hi
      apply h.sound.toTidy.valid_record hdlive he (Nat.le_add_right _ _)
      simp only [MAXNAMELEN, FILESIZE] at hshort ⊢
      omega
    · rw [ends_bind, ends_get32]
      refine ⟨hok.okWord_f_size, ?_⟩
      rw [ends_bind, ends_get32]
      refine ⟨hok.okWord_field (k := 132) (by decide) (by decide), ?_⟩
      have hfalse : (read32 m (f_type f) == FTYPE_DIR) = false := beq_eq_false_iff_ne.mpr htype
      have hsize : BitVec.ofNat 32 (contents m f).length = read32 m (f_size f) := by
        rw [contents, length_bytesOf, fileSize, BitVec.ofNat_toNat, BitVec.setWidth_eq]
      rw [Fsipc.put, if_pos (.inr hwrite), ends_bind, ends_pure, ends_pure, hfalse]
      refine ⟨hd.offset, contents m f, ?_, by rw [hoff, fd_eq_seek], h.sound, Moved.refl hok, rfl⟩
      rw [hsize, hsplit, List.getLastD_concat]
  · exact fun f hf hid htype _ => absurd htype (hfits f hid hf)

end Handlers

theorem zero_not_mem_reqPath (page : Memory) :
  0 ∉ reqPath page
  := by
  intro hin
  have hne := List.mem_takeWhile_imp hin
  exact absurd hne (by decide)

/-- A file that nobody has open is removed. -/
theorem ends_serveRemove (h : Agree m t D) (hread : ipc.perm &&& PTE_U ≠ 0)
    (hfits : ∀ f, resolve (child m) s_root (components (reqPath ipc.page)) = some f →
      fileType m f = FTYPE_REG ∧ ∀ id, t.Holds id → (t.opentab (slotOf id)).o_file ≠ some f) :
  (serveRemove ipc t).Ends valid m
    (fun x m' => ∃ D', D.remove ipc.page = (x.1, x.2.1, D') ∧ Agree m' x.2.2 D') False
  := by
  rw [serveRemove, Fsipc.get, if_pos hread, ends_bind, ends_pure, ends_bind]
  apply (ends_fileRemove h.sound (zero_not_mem_reqPath _) (fun f hf => (hfits f hf).1)).mono _ id
  rintro r m' ⟨hsound, heq, hkept⟩
  rw [← h.volume] at heq
  rw [ends_pure, Desk.remove, ← heq]
  refine ⟨_, rfl, h.files hsound ?_⟩
  intro hd id hid g hg
  rw [hkept]
  · exact hg
  · intro hpath
    obtain ⟨f, hf, hpath', -⟩ := h.handle hid
    rw [hg] at hpath'
    cases hpath'
    rw [hpath] at hg
    exact (hfits _ hg).2 id (h.holds hid) hf

/-- What `openfile_alloc` does: it takes a slot that no client shares, if there is one and a page for
it. -/
theorem openfileAlloc_cases (noMem : Bool) (t : Server) :
  (openfileAlloc noMem t = (.error (-E_MAX_OPEN), t) ∧ ∀ i < MAXOPEN, 2 ≤ t.pageref i)
    ∨ (openfileAlloc noMem t = (.error (-E_NO_MEM), t) ∧ noMem = true)
    ∨ ∃ i < MAXOPEN, t.pageref i ≤ 1 ∧ openfileAlloc noMem t = (.ok i, t.take i)
  := by
  unfold openfileAlloc
  generalize MAXOPEN = n
  split
  case h_1 hfind =>
    refine .inl ⟨rfl, ?_⟩
    intro i hi
    have hbusy := List.find?_eq_none.mp hfind i (List.mem_range.mpr hi)
    rw [decide_eq_true_eq] at hbusy
    omega
  case h_2 i hfind =>
    split
    case isTrue hmem => exact .inr (.inl ⟨rfl, hmem.2⟩)
    case isFalse =>
      refine .inr (.inr ⟨i, ?_, ?_, rfl⟩)
      · exact List.mem_range.mp (List.mem_of_find?_eq_some hfind)
      · exact of_decide_eq_true (List.find?_some (p := fun i => decide (t.pageref i ≤ 1)) hfind)

/-- What has to hold of a request to open. -/
structure OpenReady (m : Memory) (t : Server) (ipc : Fsipc) : Prop where
  record : reqOmode ipc.page &&& O_CREAT ≠ 0 →
    resolve (child m) s_root (components (reqPath ipc.page)) = none →
    ∀ d, parent m s_root (components (reqPath ipc.page)) = some d → ∃ e, Record m d e ∧ m e = 0
  plain : reqOmode ipc.page &&& O_TRUNC ≠ 0 → volume m (components (reqPath ipc.page)) ≠ some .dir
  ids : ∀ i < MAXOPEN, t.pageref i ≤ 1 → (t.opentab i).o_fileid.toNat + MAXOPEN < 2 ^ 31

/-- A file is opened as on the volume. -/
theorem ends_serveOpen (noMem taken : Bool) (h : Agree m t D) (hread : ipc.perm &&& PTE_U ≠ 0)
    (hready : OpenReady m t ipc) :
  (serveOpen noMem ipc t).Ends valid m
    (fun x m' => ∃ D', D.Opens ipc.page ipc.perm noMem taken
        ⟨x.1, x.2.1, if x.2.1.isSome then PTE_P ||| PTE_U ||| PTE_W else ipc.perm, ipc.page⟩ D'
      ∧ Agree m' (x.2.2.sent x.2.1 taken) D') False
  := by
  rw [serveOpen, Fsipc.get, if_pos hread, ends_bind, ends_pure]
  rcases openfileAlloc_cases noMem t with ⟨heq, hbusy⟩ | ⟨heq, hmem⟩ | ⟨i, hi, hidle, heq⟩
  · rw [heq]
    refine (ends_pure _).mpr ⟨D, .full ?_, h⟩
    intro i hi
    have hslot := h.ids i hi
    have hid : t.Holds (t.opentab i).o_fileid := by
      rw [Server.Holds, hslot]
      exact ⟨hbusy i hi, rfl⟩
    obtain ⟨f, path, -, -, hhandle⟩ := h.held _ hid
    exact ⟨_, hslot, by rw [hhandle]; rfl⟩
  · rw [heq]
    exact (ends_pure _).mpr ⟨D, .noMem hmem, h⟩
  · rw [heq]
    have hlast := hready.ids i hi hidle
    obtain ⟨htake, href, hnew⟩ := h.take hi hidle (by omega)
    have hoff : ((t.take i).fd i).fd_offset = 0 := by
      rw [Server.take_fd_self]
    have hid : ((t.take i).opentab i).o_fileid.toNat < 2 ^ 31 := by
      rw [Server.take_fileid_self, (slotOf_add (by omega)).1]
      exact hlast
    generalize t.take i = t₁ at *
    dsimp only
    rw [if_neg, ends_bind]
    · apply (openPath_linked h.sound (zero_not_mem_reqPath _) hready.record hready.plain).mono _ id
      intro r m' hl
      have hfiles := htake.files hl.sound (fun hd id _ g hg => hl.kept _ g hg)
      have hvolume := hl.volume
      rw [← h.volume] at hvolume
      cases r with
      | error c => exact (ends_pure _).mpr ⟨_, .fails hvolume.symm (hl.failed c rfl), hfiles⟩
      | ok f =>
          have hopen := hfiles.opened (reqOmode ipc.page) taken hi href hnew hoff (hl.found f rfl)
          have hslot := htake.ids i hi
          have hopens : D.Opens ipc.page ipc.perm noMem taken _ _ := .opens hvolume.symm hnew
          rw [hslot] at hopens
          exact (ends_pure _).mpr ⟨_, hopens, hopen⟩
    · rw [BitVec.slt_eq_decide, decide_eq_true_eq, BitVec.toInt_eq_toNat_of_lt (by omega)]
      simp

end Jos.Fs
