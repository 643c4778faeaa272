import Jos.User.Reading

/-!
# Duplicating a descriptor

`dup` of `lib/fd.c` closes the new descriptor and maps the data page and the page of the
`struct Fd` of the old one there.  If a page cannot be mapped it unmaps both pages of the new
descriptor.  The number of the new descriptor is taken as it is, so that the two pages may lie
anywhere.

All that `dup` does to the mappings is described by tables: `closedAt`, `copiedTo` and `droppedAt` say
what a step makes of the table of the environment that runs, and `dup_ends` puts them together.
-/

namespace Jos

namespace User

open Bytes Prog View

/-! ### The source -/

def FILEDATA : Nat := FDTABLE + MAXFD * PGSIZE

/-- The address of the data page of the descriptor `i`. -/
def INDEX2DATA (i : Word) : Word :=
  BitVec.ofNat 32 FILEDATA + i * PAGE

def fd2data (fd : Word) : Word :=
  INDEX2DATA (fd2num fd)

/-- The flags of the entry for `va` in `uvpt`. -/
def uvptFlags (va : Word) : Prog World Word := do
  let w ← get
  pure ((w.entry w.self va).elim 0 Mapped.perm)

/-- Map the page at `src` at `dst` as well, with the flags that it has. -/
def dupPage (src dst : Word) : Prog World Word := do
  let flags ← uvptFlags src
  sysPageMap 0 src 0 dst (flags &&& PTE_SYSCALL)

/-- Map the data page at `ova` at `nva` as well, if there is one. -/
def dupData (ova nva : Word) : Prog World Word := do
  let m ← mapped ova
  if m then
    dupPage ova nva
  else
    pure 0

/-- The way out of `dup` when a page could not be mapped. -/
def dupErr (newfd nva r : Word) : Prog World Word := do
  let _ ← sysPageUnmap 0 newfd
  let _ ← sysPageUnmap 0 nva
  pure r

/-- Make `newfdnum` a duplicate of the descriptor `oldfdnum`. -/
def dup (oldfdnum newfdnum : Word) : Prog World Word := do
  let r ← fdLookup oldfdnum
  match r with
  | .error r => pure r
  | .ok oldfd =>
      let _ ← close newfdnum
      let newfd := INDEX2FD newfdnum
      let ova := fd2data oldfd
      let nva := fd2data newfd
      let r ← dupData ova nva
      if isError r then
        dupErr newfd nva r
      else
        let r ← dupPage oldfd newfd
        if isError r then
          dupErr newfd nva r
        else
          pure newfdnum

/-! ### What is to be done -/

/-- The number is one of the table of descriptors. -/
def InRange (fdnum : Word) : Prop :=
  0 ≤ fdnum.toInt ∧ fdnum.toInt < MAXFD

instance (fdnum : Word) : Decidable (InRange fdnum) :=
  inferInstanceAs (Decidable (_ ∧ _))

/-- The address of the data page of a descriptor. -/
abbrev dataAddr (fdnum : Word) : Word := fd2data (INDEX2FD fdnum)

/-- The page that the program that runs maps at `va`. -/
def World.pageAt (w : World) (va : Word) : Option Nat :=
  (w.entry w.self va).map Mapped.page

/-- The descriptor is open. -/
def World.IsOpen (w : World) (fdnum : Word) : Prop :=
  InRange fdnum ∧ (w.entry w.self (INDEX2FD fdnum)).isSome

/-- The descriptor `new` is the one that `old` was, and the other ones are as they were. -/
structure Duplicated (w : World) (old new : Word) (w' : World) : Prop where
  fd : w'.pageAt (INDEX2FD new) = w.pageAt (INDEX2FD old)
  data : w'.pageAt (dataAddr new) = w.pageAt (dataAddr old)
  still : w'.IsOpen old
  others : ∀ i, InRange i → i ≠ new →
    w'.entry w'.self (INDEX2FD i) = w.entry w.self (INDEX2FD i)
      ∧ w'.entry w'.self (dataAddr i) = w.entry w.self (dataAddr i)

/-- What is promised of a call of `dup` in `w` that returns `r`. -/
structure Promised (w : World) (old new r : Word) (w' : World) : Prop where
  refused : ¬ (w.IsOpen old ∧ InRange new) →
    isError r = true ∧ ∀ e va, w'.entry e va = w.entry e va
  success : w.IsOpen old → InRange new → isError r = false → r = new ∧ Duplicated w old new w'
  failure : w.IsOpen old → InRange new → isError r = true → w'.IsOpen old ∧ ¬ w'.IsOpen new

/-- What is promised of `dup` is kept whatever the rest of the system answers. The file server is
out of reach only if a file is closed. -/
def Kept (w : World) (old new : Word) : Prop :=
  ∀ fate tables, (dup old new).EndsOr
    (fun stop => stop = .panic "ipc_send: error %e" ∧ w.IsOpen new) (w.fated fate tables)
    (Promised (w.fated fate tables) old new)

/-- The pages below `UTOP` are mapped for the user, as every system call that maps a page
makes sure. -/
def World.ForUser (w : World) : Prop :=
  ∀ va m, UserPageAddr va → w.entry w.self va = some m →
    m.perm &&& PTE_U = PTE_U ∧ m.perm &&& PTE_P = PTE_P

/-- One of the pages that `dup` maps cannot be mapped where it is to be. -/
def Misplaced (w : World) (old new : Word) : Prop :=
  ¬ UserPageAddr (INDEX2FD new)
    ∨ ((w.entry w.self (dataAddr old)).isSome ∧ ¬ UserPageAddr (dataAddr new))

/-- There is nothing to be unmapped at `va`. -/
def Blank (w : World) (va : Word) : Prop :=
  UserPageAddr va → w.entry w.self va = none

/-- The mapping that `dup` makes of a mapping. -/
def Mapped.dup (m : Mapped) : Mapped :=
  ⟨m.page, m.perm &&& PTE_SYSCALL⟩

/-- A page at `src` is at `dst` already. -/
def Already (w : World) (src dst : Word) : Prop :=
  ∀ m, w.entry w.self src = some m → w.entry w.self dst = some m.dup

/-- The descriptors for which `dup` keeps what is promised. A number that is none passes if the
pages cannot be mapped, and where they would be there is nothing to lose, or if it is negative and
the pages are there already. -/
structure Suitable (w : World) (old new : Word) : Prop where
  inside : InRange new → new ≠ old
    ∧ ((w.entry w.self (dataAddr old)).isSome ∨ w.entry w.self (dataAddr new) = none)
  misplaced : ¬ InRange new → Misplaced w old new →
    Blank w (INDEX2FD new) ∧ Blank w (dataAddr new)
  placed : ¬ InRange new → ¬ Misplaced w old new → isError new = true
    ∧ Already w (dataAddr old) (dataAddr new) ∧ Already w (INDEX2FD old) (INDEX2FD new)


variable {w w' w'' : World} {old new i j src dst va : Word}

/-! ### The pages below `UTOP` -/

/-- A word has a flag or not. -/
theorem and_twoPow_of_ne {x : Word} {k : Nat} (h : x &&& BitVec.twoPow 32 k ≠ 0) :
  x &&& BitVec.twoPow 32 k = BitVec.twoPow 32 k
  := by
  rw [BitVec.and_twoPow] at h ⊢
  split
  case isTrue => rfl
  case isFalse hbit =>
    rw [if_neg hbit] at h
    apply (h rfl).elim

/-! ### The pages of a descriptor -/

theorem PGNUM_fd (i : Word) :
  PGNUM (INDEX2FD i) = (0xD0000 + i.toNat) % 2 ^ 20
  := by
  have hpage : PAGE.toNat = 4096 := by decide
  rw [PGNUM_eq, INDEX2FD, BitVec.toNat_add, BitVec.toNat_mul, hpage, BitVec.toNat_ofNat]
  simp only [FDTABLE]
  omega

theorem fd_aligned (i : Word) :
  (INDEX2FD i).toNat % PGSIZE = 0
  := by
  have hpage : PAGE.toNat = 4096 := by decide
  rw [INDEX2FD, BitVec.toNat_add, BitVec.toNat_mul, hpage, BitVec.toNat_ofNat]
  simp only [FDTABLE, PGSIZE]
  omega

theorem fd2num_toNat (i : Word) :
  (fd2num (INDEX2FD i)).toNat = i.toNat % 2 ^ 20
  := by
  have hpage : PAGE.toNat = 4096 := by decide
  rw [fd2num, INDEX2FD, BitVec.toNat_udiv, BitVec.toNat_sub, BitVec.toNat_add, BitVec.toNat_mul,
    hpage, BitVec.toNat_ofNat]
  simp only [FDTABLE]
  omega

theorem dataAddr_toNat (i : Word) :
  (dataAddr i).toNat = (0xD0020000 + i.toNat % 2 ^ 20 * 4096) % 2 ^ 32
  := by
  have hpage : PAGE.toNat = 4096 := by decide
  rw [dataAddr, fd2data, INDEX2DATA, BitVec.toNat_add, BitVec.toNat_mul, hpage, fd2num_toNat,
    BitVec.toNat_ofNat]
  simp only [FILEDATA, FDTABLE, MAXFD, PGSIZE]
  omega

theorem PGNUM_data (i : Word) :
  PGNUM (dataAddr i) = (0xD0020 + i.toNat) % 2 ^ 20
  := by
  rw [PGNUM_eq, dataAddr_toNat]
  omega

theorem data_aligned (i : Word) :
  (dataAddr i).toNat % PGSIZE = 0
  := by
  rw [dataAddr_toNat]
  simp only [PGSIZE]
  omega

/-- The two pages of a descriptor are not the same. -/
theorem data_ne_fd (i : Word) :
  PGNUM (dataAddr i) ≠ PGNUM (INDEX2FD i)
  := by
  rw [PGNUM_data, PGNUM_fd]
  omega

theorem inRange_iff :
  InRange i ↔ i.toNat < MAXFD
  := by
  have hlt := i.isLt
  rw [InRange, BitVec.toInt_eq_toNat_cond]
  simp only [MAXFD]
  omega

theorem fdLookup_ite (i : Word) (w : World) :
  fdLookup i w = .ok (if i.toNat < MAXFD ∧ (w.entry w.self (INDEX2FD i)).isSome then .ok (INDEX2FD i)
    else .error (-E_INVAL), w)
  := by
  have hmax : (BitVec.ofNat 32 MAXFD).toInt = (MAXFD : Int) := by decide
  have hzero : (0 : Word).toInt = 0 := by decide
  have hrange : (i.slt 0 ∨ ¬ i.slt (BitVec.ofNat 32 MAXFD)) ↔ ¬ i.toNat < MAXFD := by
    rw [← inRange_iff, InRange, BitVec.slt, BitVec.slt, hmax, hzero]
    simp only [decide_eq_true_eq]
    omega
  rw [fdLookup]
  by_cases hlt : i.toNat < MAXFD
  · rw [if_neg (fun h => hrange.mp h hlt)]
    simp only [hlt, true_and]
    rfl
  · rw [if_pos (hrange.mpr hlt), if_neg (fun h => hlt h.1)]
    rfl

theorem fd2num_fd (h : i.toNat < MAXFD) :
  fd2num (INDEX2FD i) = i
  := by
  apply BitVec.eq_of_toNat_eq
  rw [fd2num_toNat]
  simp only [MAXFD] at h
  omega

theorem InRange.userPageAddr_fd (h : InRange i) :
  UserPageAddr (INDEX2FD i)
  := by
  constructor
  · have hnum := PGNUM_fd i
    have hlt := inRange_iff.mp h
    have htop : UTOP = 4005560320 := rfl
    rw [PGNUM_eq] at hnum
    simp only [MAXFD] at hlt
    omega
  · apply fd_aligned

theorem InRange.userPageAddr_data (h : InRange i) :
  UserPageAddr (dataAddr i)
  := by
  constructor
  · have hnum := PGNUM_data i
    have hlt := inRange_iff.mp h
    have htop : UTOP = 4005560320 := rfl
    rw [PGNUM_eq] at hnum
    simp only [MAXFD] at hlt
    omega
  · apply data_aligned

theorem InRange.data_ne (h : InRange i) (h' : InRange j) :
  PGNUM (dataAddr i) ≠ PGNUM (INDEX2FD j)
  := by
  have hi := inRange_iff.mp h
  have hj := inRange_iff.mp h'
  rw [PGNUM_data, PGNUM_fd]
  simp only [MAXFD] at hi hj
  omega

theorem InRange.fd_inj (h : InRange i) (h' : InRange j) (hne : i ≠ j) :
  PGNUM (INDEX2FD i) ≠ PGNUM (INDEX2FD j)
  := by
  have hi := inRange_iff.mp h
  have hj := inRange_iff.mp h'
  have hnat : i.toNat ≠ j.toNat := fun heq => hne (BitVec.eq_of_toNat_eq heq)
  rw [PGNUM_fd, PGNUM_fd]
  simp only [MAXFD] at hi hj
  omega

theorem InRange.data_inj (h : InRange i) (h' : InRange j) (hne : i ≠ j) :
  PGNUM (dataAddr i) ≠ PGNUM (dataAddr j)
  := by
  have hi := inRange_iff.mp h
  have hj := inRange_iff.mp h'
  have hnat : i.toNat ≠ j.toNat := fun heq => hne (BitVec.eq_of_toNat_eq heq)
  rw [PGNUM_data, PGNUM_data]
  simp only [MAXFD] at hi hj
  omega

/-! ### Tables -/

/-- What an environment maps, by the numbers of pages. -/
abbrev Table := Nat → Option Mapped

/-- What the environment that runs maps. -/
def World.table (w : World) : Table :=
  fun n => (w.procs w.self).bind (fun p => p.maps n)

/-- From `w` to `w'` the table of the environment that runs became `t`, and no other one changed. -/
structure Turns (w w' : World) (t : Table) : Prop where
  self : w'.self = w.self
  running : (w'.procs w'.self).isSome
  table : w'.table = t
  others : ∀ e, e ≠ w.self → w'.procs e = w.procs e
  granted : w.Granted → w'.Granted

namespace Turns

variable {t : Table}

theorem refl (h : (w.procs w.self).isSome) :
  Turns w w w.table
  := ⟨rfl, h, rfl, fun _ _ => rfl, id⟩

theorem key (h : Turns w w' t) :
  w'.key 0 = w.self
  := by rw [World.key, if_pos rfl, h.self]

theorem find (h : Turns w w' t) :
  ∃ p, w'.find 0 = some p
  := by
  rcases Option.isSome_iff_exists.mp h.running with ⟨p, hp⟩
  use p
  rw [World.find, World.key, if_pos rfl, hp]

theorem entry (h : Turns w w' t) (va : Word) :
  w'.entry w.self va = t (PGNUM va)
  := by
  rw [← h.table, ← h.self]
  rfl

theorem asked (h : Turns w w' t) :
  Turns w w'.asked t
  := ⟨h.self, h.running, h.table, h.others, h.granted⟩

theorem askedTable (h : Turns w w' t) :
  Turns w w'.askedTable t
  := ⟨h.self, h.running, h.table, h.others, fun hall k => h.granted hall (k + 1)⟩

theorem setEntry (h : Turns w w' t) (va : Word) (m : Option Mapped) :
  Turns w (w'.setEntry w.self va m) (Function.update t (PGNUM va) m)
  := by
  rcases Option.isSome_iff_exists.mp h.running with ⟨p, hp⟩
  rw [h.self] at hp
  have hproc := @procs_setEntry w' w.self va m
  rw [hp] at hproc
  constructor
  case self => apply h.self
  case running =>
    change ((w'.setEntry w.self va m).procs w'.self).isSome
    rw [isSome_setEntry]
    apply h.running
  case table =>
    funext n
    have htable := congrFun h.table n
    rw [World.table, h.self, hp] at htable
    change ((w'.setEntry w.self va m).procs w'.self).bind _ = _
    rw [h.self, hproc]
    change Function.update p.maps (PGNUM va) m n = _
    rw [Function.update_apply, Function.update_apply, ← htable]
    rfl
  case others =>
    intro e he
    rw [procs_setEntry_of_ne he]
    apply h.others e he
  case granted => apply h.granted

/-- Where the table is the old one, nothing changed at all. -/
theorem entry_eq (h : Turns w w' w.table) (e va : Word) :
  w'.entry e va = w.entry e va
  := by
  by_cases he : e = w.self
  · subst he
    apply h.entry va
  · rw [World.entry, World.entry, h.others e he]

end Turns

/-! ### Closing a descriptor -/

/-- The way `dup` stops when the file server cannot be reached. -/
def Unreached (w : World) (new : Word) (stop : Stop World) : Prop :=
  stop = .panic "ipc_send: error %e" ∧ w.IsOpen new ∧ ¬ w.Granted

/-- The table once a descriptor is closed. -/
def closedAt (t : Table) (fdnum : Word) : Table :=
  if fdnum.toNat < MAXFD then Function.update t (PGNUM (INDEX2FD fdnum)) none else t

variable {t : Table} {B : Stop World → Prop}

/-- A page that is mapped for the user is read. -/
theorem load32_page {m : Mapped} {o : Nat} (hm : w.entry w.self va = some m)
    (hperm : m.perm &&& PTE_U = PTE_U) (hva : va.toNat % PGSIZE = 0) (ho : o + 4 ≤ PGSIZE) :
  ∃ x, load32 (off va o) w = .ok (x, w)
  := by
  have hbyte : ∀ k, k < PGSIZE → ∃ b, w.view w.self (off va k) = some b := by
    intro k hk
    rcases off_page hva hk with ⟨hnum, hoff⟩
    have hentry : w.entry w.self (off va k) = some m := by
      rw [World.entry, hnum]
      apply hm
    use w.mem (m.page * PGSIZE + PGOFF (off va k))
    rw [view_eq_some]
    exact ⟨_, translate_eq_some.mpr ⟨m, hentry, hperm, rfl⟩, rfl⟩
  rcases hbyte o (by omega) with ⟨b0, h0⟩
  rcases hbyte (o + 1) (by omega) with ⟨b1, h1⟩
  rcases hbyte (o + 2) (by omega) with ⟨b2, h2⟩
  rcases hbyte (o + 3) (by omega) with ⟨b3, h3⟩
  rw [← off_off] at h1 h2 h3
  use b3 ++ b2 ++ b1 ++ b0
  apply load32_eq
  apply word_eq_some.mpr
  exact ⟨b0, b1, b2, b3, h0, h1, h2, h3, rfl⟩

/-- Writing a file to disk changes no table. -/
theorem serveFlush_turns (h : Turns w w' t) (fileid : Word) :
  (serveFlush fileid).EndsOr B w' (fun _ w'' => Turns w w'' t)
  := by
  rw [serveFlush, endsOr_bind, request, endsOr_bind, endsOr_get, endsOr_bind, endsOr_set, endsOr_pure,
    endsOr_bind, endsOr_get, endsOr_ite]
  constructor
  · intro _
    rw [endsOr_pure]
    apply h.asked
  · intro _
    rw [endsOr_ite]
    constructor
    · intro _
      rw [endsOr_pure]
      apply h.asked
    · intro _
      rw [endsOr_pure]
      apply h.asked

theorem devClose_turns {m : Mapped} {fd r : Word} (h : Turns w w' t)
    (hm : w'.entry w'.self fd = some m) (hperm : m.perm &&& PTE_U = PTE_U)
    (haligned : fd.toNat % PGSIZE = 0)
    (hstop : ¬ w.Granted → B (.panic "ipc_send: error %e")) :
  (devClose fd r).EndsOr B w' (fun _ w'' => Turns w w'' t)
  := by
  rcases load32_page hm hperm haligned (show 12 + 4 ≤ PGSIZE by decide) with ⟨fileid, hload⟩
  rw [devClose, endsOr_ite]
  constructor
  · intro _
    rw [endsOr_pure]
    apply h
  · intro _
    rw [devfileFlush, endsOr_bind, endsOr_of_eq hload, fsipc, endsOr_bind, requestTable, endsOr_bind,
      endsOr_get, endsOr_bind, endsOr_set, endsOr_pure, endsOr_ite]
    constructor
    · intro hrefused
      rw [endsOr_panic]
      apply hstop
      intro hgranted
      rw [h.granted hgranted 0] at hrefused
      cases hrefused
    · intro _
      apply serveFlush_turns h.askedTable

/-- Closing a descriptor takes its page away, if there is one. -/
theorem close_turns (h : (w.procs w.self).isSome) (huser : w.ForUser) (new : Word) :
  (close new).EndsOr (Unreached w new) w (fun _ w' => Turns w w' (closedAt w.table new))
  := by
  have hlookup := fdLookup_ite new w
  by_cases hopen : new.toNat < MAXFD ∧ (w.entry w.self (INDEX2FD new)).isSome
  · rcases hopen with ⟨hlt, hsome⟩
    rcases Option.isSome_iff_exists.mp hsome with ⟨m, hm⟩
    have hrange := inRange_iff.mpr hlt
    have hpage := hrange.userPageAddr_fd
    have hperm := (huser _ m hpage hm).1
    rcases load32_page hm hperm hpage.2 (show 0 + 4 ≤ PGSIZE by decide) with ⟨devId, hload⟩
    rw [off_zero] at hload
    rw [if_pos ⟨hlt, hsome⟩] at hlookup
    rw [close, endsOr_bind, endsOr_of_eq hlookup]
    simp only
    rw [fdClose, endsOr_bind, fd2num_fd hlt, endsOr_of_eq hlookup]
    simp only
    rw [if_neg (not_not.mpr rfl), endsOr_bind, endsOr_of_eq hload, endsOr_bind]
    apply (devClose_turns (Turns.refl h) hm hperm hpage.2 _).mono
    · intro r w1 h1
      rcases h1.find with ⟨p, hp⟩
      rw [endsOr_bind, endsOr_of_eq (sysPageUnmap_eq hpage hp), endsOr_pure, h1.key, closedAt, if_pos hlt]
      apply h1.setEntry
    · intro hnot
      exact ⟨rfl, ⟨hrange, hsome⟩, hnot⟩
  · have hclosed : closedAt w.table new = w.table := by
      rw [closedAt]
      split
      case isTrue hlt =>
        apply Function.update_eq_self_iff.mpr
        symm
        apply Option.not_isSome_iff_eq_none.mp (fun hsome => hopen ⟨hlt, hsome⟩)
      case isFalse => rfl
    rw [if_neg hopen] at hlookup
    rw [close, endsOr_bind, endsOr_of_eq hlookup, endsOr_pure, hclosed]
    apply Turns.refl h

/-! ### Mapping and unmapping -/

/-- The table once the page at `src` is mapped at `dst` as well. -/
def copiedTo (t : Table) (src dst : Word) : Table :=
  match t (PGNUM src) with
  | some m => Function.update t (PGNUM dst) (some m.dup)
  | none => t

/-- The table once what is at `va` is unmapped. -/
def droppedAt (t : Table) (va : Word) : Table :=
  if UserPageAddr va then Function.update t (PGNUM va) none else t

/-- The pages below `UTOP` are for the user. -/
def Table.ForUser (t : Table) : Prop :=
  ∀ va m, UserPageAddr va → t (PGNUM va) = some m →
    m.perm &&& PTE_U = PTE_U ∧ m.perm &&& PTE_P = PTE_P

/-- Flags that a user page has may be asked for. -/
theorem properPerm_flags {perm : Word} (hu : perm &&& PTE_U = PTE_U) (hp : perm &&& PTE_P = PTE_P) :
  ProperPerm (perm &&& PTE_SYSCALL)
  := by
  have hsu : PTE_SYSCALL &&& PTE_U = PTE_U := by decide
  have hsp : PTE_SYSCALL &&& PTE_P = PTE_P := by decide
  constructor
  · rw [BitVec.and_assoc, hsu, hu]
    decide
  constructor
  · rw [BitVec.and_assoc, hsp, hp]
    decide
  · rw [BitVec.and_assoc]
    have hzero : PTE_SYSCALL &&& ~~~ PTE_SYSCALL = 0 := by decide
    rw [hzero]
    apply BitVec.and_zero

theorem update_none_forUser (h : t.ForUser) (n : Nat) :
  Table.ForUser (Function.update t n none)
  := by
  intro va m hva hm
  rw [Function.update_apply] at hm
  split at hm
  case isTrue => cases hm
  case isFalse => apply h va m hva hm

theorem closedAt_forUser (h : t.ForUser) (fdnum : Word) :
  (closedAt t fdnum).ForUser
  := by
  rw [closedAt]
  split
  case isTrue => apply update_none_forUser h
  case isFalse => apply h

theorem copiedTo_forUser (h : t.ForUser) (hsrc : UserPageAddr src) (dst : Word) :
  (copiedTo t src dst).ForUser
  := by
  rw [copiedTo]
  split
  case h_1 m hm =>
    intro va m' hva hm'
    rw [Function.update_apply] at hm'
    split at hm'
    case isTrue =>
      rcases Option.some.inj hm' with rfl
      rcases h src m hsrc hm with ⟨hu, hp⟩
      have hsu : PTE_SYSCALL &&& PTE_U = PTE_U := by decide
      have hsp : PTE_SYSCALL &&& PTE_P = PTE_P := by decide
      constructor
      · rw [Mapped.dup, BitVec.and_assoc, hsu, hu]
      · rw [Mapped.dup, BitVec.and_assoc, hsp, hp]
    case isFalse => apply h va m' hva hm'
  case h_2 => apply h

/-- A page is mapped, or there is none to be mapped, or no place for it, or no memory. -/
theorem dupPage_turns (h : Turns w w' t) (huser : t.ForUser) (hsrc : UserPageAddr src)
    (dst : Word) :
  (dupPage src dst).EndsOr B w' (fun r w'' =>
    (isError r = false ∧ UserPageAddr dst ∧ (t (PGNUM src)).isSome ∧ Turns w w'' (copiedTo t src dst)) ∨
    (isError r = true ∧ (¬ UserPageAddr dst ∨ t (PGNUM src) = none
      ∨ (¬ w.Granted ∧ t (PGNUM dst) = none)) ∧ Turns w w'' t))
  := by
  rcases h.find with ⟨p, hp⟩
  have hentry := h.entry src
  rw [← h.self] at hentry
  rw [dupPage, endsOr_bind, uvptFlags, endsOr_bind, endsOr_get, endsOr_pure, hentry]
  by_cases hdst : UserPageAddr dst
  · cases hm : t (PGNUM src) with
    | none =>
        have hmap : sysPageMap 0 src 0 dst (0 &&& PTE_SYSCALL) w' = .ok (-E_INVAL, w') := by
          rw [sysPageMap, get_bind, hp]
          simp only
          rw [if_neg (not_or.mpr ⟨not_not.mpr hsrc, not_not.mpr hdst⟩), if_pos (by decide)]
          rfl
        rw [Option.elim_none, endsOr_of_eq hmap]
        right
        exact ⟨rfl, .inr (.inl rfl), h⟩
    | some m =>
        rcases huser src m hsrc hm with ⟨hu, hpresent⟩
        have hwrite : ¬ (m.perm &&& PTE_SYSCALL &&& PTE_W ≠ 0 ∧ m.perm &&& PTE_W = 0) := by
          have hsw : PTE_SYSCALL &&& PTE_W = PTE_W := by decide
          rw [BitVec.and_assoc, hsw]
          rintro ⟨hne, hzero⟩
          apply hne hzero
        have hmap := sysPageMap_eq hsrc hdst (properPerm_flags hu hpresent) hp hp
          (by rw [h.key, h.entry]; apply hm) hwrite
        rw [h.key] at hmap
        rw [Option.elim_some]
        split at hmap
        case isTrue hrefused =>
          rw [endsOr_of_eq hmap]
          right
          refine ⟨rfl, .inr (.inr ⟨?_, ?_⟩), h.askedTable⟩
          · intro hgranted
            rw [h.granted hgranted 0] at hrefused
            cases hrefused.1
          · rw [← h.entry]
            apply Option.isNone_iff_eq_none.mp hrefused.2
        case isFalse =>
          rw [endsOr_of_eq hmap]
          left
          refine ⟨rfl, hdst, rfl, ?_⟩
          rw [copiedTo, hm]
          apply h.askedTable.setEntry
  · have hmap : ∀ perm, sysPageMap 0 src 0 dst perm w' = .ok (-E_INVAL, w') := by
      intro perm
      rw [sysPageMap, get_bind, hp]
      simp only
      rw [if_pos (.inr hdst)]
      rfl
    rw [endsOr_of_eq (hmap _)]
    right
    exact ⟨rfl, .inl hdst, h⟩

theorem sysPageUnmap_turns (h : Turns w w' t) (va : Word) :
  ∃ r w'', sysPageUnmap 0 va w' = .ok (r, w'') ∧ Turns w w'' (droppedAt t va)
  := by
  rcases h.find with ⟨p, hp⟩
  rw [droppedAt]
  split
  case isTrue hva =>
    use 0, w'.setEntry (w'.key 0) va none, sysPageUnmap_eq hva hp
    rw [h.key]
    apply h.setEntry
  case isFalse hva =>
    use -E_INVAL, w'
    constructor
    · rw [sysPageUnmap, if_pos hva]
      rfl
    · apply h

theorem dupErr_turns (h : Turns w w' t) (newfd nva r : Word) :
  ∃ w'', dupErr newfd nva r w' = .ok (r, w'') ∧ Turns w w'' (droppedAt (droppedAt t newfd) nva)
  := by
  rcases sysPageUnmap_turns h newfd with ⟨r1, w1, heq1, h1⟩
  rcases sysPageUnmap_turns h1 nva with ⟨r2, w2, heq2, h2⟩
  use w2
  constructor
  · rw [dupErr, bind_of_eq heq1, bind_of_eq heq2]
    rfl
  · apply h2

/-- What is unmapped in the end need not have been mapped before. -/
theorem droppedAt_copied (t : Table) (src dst va : Word) (hdst : UserPageAddr dst) :
  droppedAt (droppedAt (copiedTo t src dst) va) dst = droppedAt (droppedAt t va) dst
  := by
  rw [copiedTo]
  split
  case h_1 m hm =>
    rw [droppedAt, if_pos hdst, droppedAt.eq_1 (droppedAt t va), if_pos hdst]
    funext n
    rw [Function.update_apply, Function.update_apply]
    split
    case isTrue => rfl
    case isFalse hn =>
      rw [droppedAt, droppedAt]
      split
      case isTrue => rw [Function.update_apply, Function.update_apply, Function.update_apply, if_neg hn]
      case isFalse => rw [Function.update_of_ne hn]
  case h_2 => rfl

/-! ### What `dup` does to the table -/

/-- The table once `new` is closed. -/
abbrev afterClose (w : World) (new : Word) : Table := closedAt w.table new

/-- The table once the data page is there. -/
abbrev afterData (w : World) (old new : Word) : Table :=
  copiedTo (afterClose w new) (dataAddr old) (dataAddr new)

/-- A page could not be mapped. -/
def Fails (w : World) (old new : Word) : Prop :=
  ¬ UserPageAddr (INDEX2FD new)
    ∨ ((afterClose w new (PGNUM (dataAddr old))).isSome ∧ ¬ UserPageAddr (dataAddr new))
    ∨ afterData w old new (PGNUM (INDEX2FD old)) = none
    ∨ (¬ w.Granted ∧ (((afterClose w new (PGNUM (dataAddr old))).isSome
          ∧ afterClose w new (PGNUM (dataAddr new)) = none)
        ∨ afterData w old new (PGNUM (INDEX2FD new)) = none))

/-- What `dup` returns, and what it makes of the table. -/
def Outcome (w : World) (old new r : Word) (w' : World) : Prop :=
  (r = new ∧ UserPageAddr (INDEX2FD new)
    ∧ ((afterClose w new (PGNUM (dataAddr old))).isSome → UserPageAddr (dataAddr new))
    ∧ Turns w w' (copiedTo (afterData w old new) (INDEX2FD old) (INDEX2FD new)))
  ∨ (isError r = true ∧ Fails w old new
    ∧ Turns w w' (droppedAt (droppedAt (afterClose w new) (INDEX2FD new)) (dataAddr new)))

/-- The data page is mapped, if there is one. -/
theorem dupData_turns (h : Turns w w' (afterClose w new)) (huser : w.ForUser) (hold : InRange old) :
  (dupData (dataAddr old) (dataAddr new)).EndsOr B w' (fun r w'' =>
    (isError r = false ∧ ((afterClose w new (PGNUM (dataAddr old))).isSome → UserPageAddr (dataAddr new))
      ∧ Turns w w'' (afterData w old new)) ∨
    (isError r = true ∧ (afterClose w new (PGNUM (dataAddr old))).isSome
      ∧ (¬ UserPageAddr (dataAddr new) ∨ (¬ w.Granted ∧ afterClose w new (PGNUM (dataAddr new)) = none))
      ∧ Turns w w'' (afterClose w new)))
  := by
  have hmapped : mapped (dataAddr old) w' = .ok ((afterClose w new (PGNUM (dataAddr old))).isSome, w') := by
    rw [mapped_eq, h.self, h.entry]
  rw [dupData, endsOr_bind, endsOr_of_eq hmapped, endsOr_ite]
  constructor
  · intro hsome
    have hfirst : (afterClose w new).ForUser := closedAt_forUser (t := w.table) huser new
    apply (dupPage_turns h hfirst hold.userPageAddr_data _).mono
    rintro r w2 (⟨hok, hplace, -, h2⟩ | ⟨herr, hcause, h2⟩)
    · left
      exact ⟨hok, fun _ => hplace, h2⟩
    · right
      refine ⟨herr, hsome, ?_, h2⟩
      rcases hcause with hplace | hnone | hmemory
      · left
        apply hplace
      · rw [hnone] at hsome
        cases hsome
      · right
        apply hmemory
  · intro hnone
    rw [endsOr_pure]
    left
    refine ⟨rfl, fun hsome => (hnone hsome).elim, ?_⟩
    rw [afterData, copiedTo, Option.not_isSome_iff_eq_none.mp hnone]
    apply h

theorem dup_turns (hopen : w.IsOpen old) (huser : w.ForUser) (new : Word) :
  (dup old new).EndsOr (Unreached w new) w (Outcome w old new)
  := by
  rcases hopen with ⟨hold, hsome⟩
  have hrun : (w.procs w.self).isSome := by
    cases hp : w.procs w.self with
    | none =>
        rw [World.entry, hp] at hsome
        cases hsome
    | some p => rfl
  have hlookup : fdLookup old w = .ok (.ok (INDEX2FD old), w) := by
    rw [fdLookup_ite, if_pos ⟨inRange_iff.mp hold, hsome⟩]
  rw [dup, endsOr_bind, endsOr_of_eq hlookup]
  simp only
  rw [endsOr_bind]
  apply (close_turns hrun huser new).mono
  intro _ w1 h1
  rw [endsOr_bind]
  apply (dupData_turns h1 huser hold).mono
  rintro r w2 (⟨hok, hplace, h2⟩ | ⟨herr, hdata, hcause, h2⟩)
  · rw [hok, if_neg Bool.false_ne_true, endsOr_bind]
    have hsecond : (afterData w old new).ForUser :=
      copiedTo_forUser (closedAt_forUser (t := w.table) huser new) hold.userPageAddr_data _
    apply (dupPage_turns h2 hsecond hold.userPageAddr_fd _).mono
    rintro r3 w3 (⟨hok3, hplace3, -, h3⟩ | ⟨herr3, hcause3, h3⟩)
    · rw [hok3, if_neg Bool.false_ne_true, endsOr_pure]
      left
      exact ⟨rfl, hplace3, hplace, h3⟩
    · rcases dupErr_turns h3 (INDEX2FD new) (dataAddr new) r3 with ⟨w4, heq, h4⟩
      rw [if_pos herr3, endsOr_of_eq heq]
      right
      refine ⟨herr3, ?_, ?_⟩
      · rcases hcause3 with hno | hnone | ⟨hmemory, hnone⟩
        · left
          apply hno
        · right; right; left
          apply hnone
        · right; right; right
          exact ⟨hmemory, .inr hnone⟩
      · -- the data page is unmapped again, wherever it was mapped
        by_cases hdata : (afterClose w new (PGNUM (dataAddr old))).isSome
        · rw [afterData, droppedAt_copied _ _ _ _ (hplace hdata)] at h4
          apply h4
        · rw [afterData, copiedTo, Option.not_isSome_iff_eq_none.mp hdata] at h4
          apply h4
  · rcases dupErr_turns h2 (INDEX2FD new) (dataAddr new) r with ⟨w3, heq, h3⟩
    rw [if_pos herr, endsOr_of_eq heq]
    right
    refine ⟨herr, ?_, h3⟩
    rcases hcause with hno | ⟨hmemory, hnone⟩
    · right; left
      exact ⟨hdata, hno⟩
    · right; right; right
      exact ⟨hmemory, .inl ⟨hdata, hnone⟩⟩

/-! ### What is promised -/

theorem closedAt_of_ne {n : Nat} (hne : n ≠ PGNUM (INDEX2FD i)) :
  closedAt t i n = t n
  := by
  rw [closedAt]
  split
  case isTrue => apply Function.update_of_ne hne
  case isFalse => rfl

theorem closedAt_outside (h : ¬ InRange i) :
  closedAt t i = t
  := if_neg (fun hlt => h (inRange_iff.mpr hlt))

theorem copiedTo_of_ne {n : Nat} (hne : n ≠ PGNUM dst) :
  copiedTo t src dst n = t n
  := by
  rw [copiedTo]
  cases t (PGNUM src) with
  | some m => apply Function.update_of_ne hne
  | none => rfl

theorem copiedTo_some {m : Mapped} (h : t (PGNUM src) = some m) :
  copiedTo t src dst (PGNUM dst) = some m.dup
  := by
  rw [copiedTo, h]
  apply Function.update_self

/-- What is mapped stays mapped. -/
theorem copiedTo_isSome {n : Nat} (src dst : Word) (h : (t n).isSome) :
  (copiedTo t src dst n).isSome
  := by
  rw [copiedTo]
  cases t (PGNUM src) with
  | some m =>
      change (Function.update t (PGNUM dst) (some m.dup) n).isSome
      rw [Function.update_apply]
      split
      case isTrue => rfl
      case isFalse => apply h
  | none => apply h

theorem copiedTo_none (h : t (PGNUM src) = none) :
  copiedTo t src dst = t
  := by
  rw [copiedTo, h]

/-- What is there already need not be mapped. -/
theorem copiedTo_eq_self (h : ∀ m, t (PGNUM src) = some m → t (PGNUM dst) = some m.dup) :
  copiedTo t src dst = t
  := by
  rw [copiedTo]
  split
  case h_1 m hm => apply Function.update_eq_self_iff.mpr (h m hm).symm
  case h_2 => rfl

theorem droppedAt_of_ne {n : Nat} (hne : n ≠ PGNUM va) :
  droppedAt t va n = t n
  := by
  rw [droppedAt]
  split
  case isTrue => apply Function.update_of_ne hne
  case isFalse => rfl

theorem droppedAt_eq_self (h : UserPageAddr va → t (PGNUM va) = none) :
  droppedAt t va = t
  := by
  rw [droppedAt]
  split
  case isTrue hva => apply Function.update_eq_self_iff.mpr (h hva).symm
  case isFalse => rfl

theorem droppedAt_self (h : UserPageAddr va) :
  droppedAt t va (PGNUM va) = none
  := by
  rw [droppedAt, if_pos h]
  apply Function.update_self

section Inside

variable {r : Word} (hold : InRange old) (hnew : InRange new) (hne : new ≠ old)
include hold hnew hne

/-- The pages of the old descriptor are not touched. -/
theorem Outcome.old_fd (h : Outcome w old new r w') :
  w'.entry w.self (INDEX2FD old) = w.entry w.self (INDEX2FD old)
  := by
  have hfd := hold.fd_inj hnew hne.symm
  have hdata := (hnew.data_ne hold).symm
  rcases h with ⟨-, -, -, hturns⟩ | ⟨-, -, hturns⟩
  · rw [hturns.entry, copiedTo_of_ne hfd, afterData, copiedTo_of_ne hdata, afterClose, closedAt_of_ne hfd]
    rfl
  · rw [hturns.entry, droppedAt_of_ne hdata, droppedAt_of_ne hfd, afterClose, closedAt_of_ne hfd]
    rfl

/-- Where both pages are mapped, the new descriptor is the old one, but for a data page that was
there while the old one has none. -/
theorem duplicated_iff (hopen : w.IsOpen old)
    (h : Turns w w' (copiedTo (afterData w old new) (INDEX2FD old) (INDEX2FD new))) :
  Duplicated w old new w'
    ↔ (w.entry w.self (dataAddr old)).isSome ∨ w.entry w.self (dataAddr new) = none
  := by
  have hfdData : ∀ {i j}, InRange i → InRange j → PGNUM (dataAddr i) ≠ PGNUM (INDEX2FD j) :=
    fun hi hj => hi.data_ne hj
  have hself := h.self
  -- the entries of the table at the end
  have hfd : ∀ {i}, InRange i → i ≠ new → w'.entry w.self (INDEX2FD i) = w.entry w.self (INDEX2FD i) := by
    intro i hi hine
    have hne' := hi.fd_inj hnew hine
    rw [h.entry, copiedTo_of_ne hne', afterData, copiedTo_of_ne (hfdData hnew hi).symm, afterClose,
      closedAt_of_ne hne']
    rfl
  have hdata : ∀ {i}, InRange i → w'.entry w.self (dataAddr i) = afterData w old new (PGNUM (dataAddr i)) := by
    intro i hi
    rw [h.entry, copiedTo_of_ne (hfdData hi hnew)]
  have hfirst : ∀ {i}, InRange i → afterClose w new (PGNUM (dataAddr i)) = w.entry w.self (dataAddr i) := by
    intro i hi
    rw [afterClose, closedAt_of_ne (hfdData hi hnew)]
    rfl
  have hdataNew : w'.pageAt (dataAddr new) = w.pageAt (dataAddr old)
      ↔ (w.entry w.self (dataAddr old)).isSome ∨ w.entry w.self (dataAddr new) = none := by
    rw [World.pageAt, World.pageAt, hself, hdata hnew]
    cases hm : w.entry w.self (dataAddr old) with
    | some m =>
        have hm' := hm
        rw [← hfirst hold] at hm'
        rw [afterData, copiedTo_some hm']
        constructor
        · intro _
          left
          rfl
        · intro _
          rfl
    | none =>
        have hm' := hm
        rw [← hfirst hold] at hm'
        rw [afterData, copiedTo_none hm', hfirst hnew]
        constructor
        · intro heq
          right
          apply Option.map_eq_none_iff.mp heq
        · rintro (hsome | hnone)
          · cases hsome
          · rw [hnone]
  constructor
  · intro hdup
    apply hdataNew.mp hdup.data
  · intro hcond
    rcases Option.isSome_iff_exists.mp hopen.2 with ⟨m, hm⟩
    constructor
    case fd =>
      have hm' : afterData w old new (PGNUM (INDEX2FD old)) = some m := by
        rw [afterData, copiedTo_of_ne (hfdData hnew hold).symm, afterClose, closedAt_of_ne (hold.fd_inj hnew hne.symm)]
        apply hm
      rw [World.pageAt, World.pageAt, hself, h.entry, copiedTo_some hm', hm]
      rfl
    case data => apply hdataNew.mpr hcond
    case still =>
      constructor
      · apply hold
      · rw [hself, hfd hold hne.symm]
        apply hopen.2
    case others =>
      intro i hi hine
      rw [hself]
      constructor
      · apply hfd hi hine
      · rw [hdata hi, afterData, copiedTo_of_ne (hi.data_inj hnew hine), hfirst hi]

end Inside

theorem InRange.isError (h : InRange i) :
  isError i = false
  := by
  rw [Jos.isError, BitVec.slt]
  have hzero : (0 : Word).toInt = 0 := by decide
  rw [hzero]
  apply decide_eq_false
  apply Int.not_lt.mpr h.1

section Outside

variable (hout : ¬ InRange new)
include hout

theorem afterClose_outside :
  afterClose w new = w.table
  := closedAt_outside hout

/-- A page that is there already does not fail to be mapped. -/
theorem not_fails (hopen : w.IsOpen old) (hplaced : ¬ Misplaced w old new)
    (hdata : Already w (dataAddr old) (dataAddr new))
    (hfd : Already w (INDEX2FD old) (INDEX2FD new)) :
  ¬ Fails w old new
  := by
  have hfirst := afterClose_outside (w := w) hout
  have hsecond : afterData w old new = w.table := by
    rw [afterData, hfirst]
    apply copiedTo_eq_self (t := w.table) hdata
  rcases Option.isSome_iff_exists.mp hopen.2 with ⟨m, hm⟩
  rw [Fails, hsecond, hfirst]
  rintro (hno | hno | hnone | ⟨-, ⟨hsome, hnone⟩ | hnone⟩)
  · apply hplaced
    left
    apply hno
  · apply hplaced
    right
    apply hno
  · rw [show w.table (PGNUM (INDEX2FD old)) = some m from hm] at hnone
    cases hnone
  · rcases Option.isSome_iff_exists.mp hsome with ⟨d, hd⟩
    rw [show w.table (PGNUM (dataAddr new)) = some d.dup from hdata d hd] at hnone
    cases hnone
  · rw [show w.table (PGNUM (INDEX2FD new)) = some m.dup from hfd m hm] at hnone
    cases hnone

/-- A number that is no descriptor is refused, and nothing changes. -/
theorem Outcome.refused {r : Word} (hopen : w.IsOpen old) (hs : Suitable w old new)
    (h : Outcome w old new r w') :
  isError r = true ∧ Turns w w' w.table
  := by
  rw [Outcome, afterClose_outside hout] at h
  by_cases hmis : Misplaced w old new
  · rcases hs.misplaced hout hmis with ⟨hfd, hdata⟩
    rcases h with ⟨-, hplace, hplace', -⟩ | ⟨herr, -, hturns⟩
    · rcases hmis with hno | ⟨hsome, hno⟩
      · apply (hno hplace).elim
      · apply (hno (hplace' hsome)).elim
    · use herr
      rw [droppedAt_eq_self (t := w.table) hfd, droppedAt_eq_self (t := w.table) hdata] at hturns
      apply hturns
  · rcases hs.placed hout hmis with ⟨herr, hdata, hfd⟩
    rcases h with ⟨rfl, -, -, hturns⟩ | ⟨-, hfails, -⟩
    · use herr
      rw [afterData, afterClose_outside hout, copiedTo_eq_self (t := w.table) hdata,
        copiedTo_eq_self (t := w.table) hfd] at hturns
      apply hturns
    · apply (not_fails hout hopen hmis hdata hfd hfails).elim

/-- A number that is no descriptor, and is refused without a change, is suitable. -/
theorem suitable_of_refused {r : Word} (hopen : w.IsOpen old) (hgranted : w.Granted)
    (h : Outcome w old new r w') (herr : isError r = true)
    (hsame : ∀ e va, w'.entry e va = w.entry e va) :
  Suitable w old new
  := by
  have hne := data_ne_fd new
  rw [Outcome, afterData, afterClose_outside hout] at h
  constructor
  case inside =>
    intro hnew
    apply (hout hnew).elim
  case misplaced =>
    intro _ hmis
    rcases h with ⟨-, hplace, hplace', -⟩ | ⟨-, -, hturns⟩
    · rcases hmis with hno | ⟨hsome, hno⟩
      · apply (hno hplace).elim
      · apply (hno (hplace' hsome)).elim
    · constructor
      · intro hva
        rw [← hsame, hturns.entry, droppedAt_of_ne hne.symm, droppedAt_self hva]
      · intro hva
        rw [← hsame, hturns.entry, droppedAt_self hva]
  case placed =>
    intro _ hplaced
    rcases Option.isSome_iff_exists.mp hopen.2 with ⟨m, hm⟩
    rcases h with ⟨rfl, -, -, hturns⟩ | ⟨-, hfails, -⟩
    · have hdata : Already w (dataAddr old) (dataAddr r) := by
        intro d hd
        rw [← hsame, hturns.entry, copiedTo_of_ne hne, copiedTo_some hd]
      rw [copiedTo_eq_self (t := w.table) hdata] at hturns
      refine ⟨herr, hdata, ?_⟩
      intro m hm
      rw [← hsame, hturns.entry, copiedTo_some hm]
    · rw [Fails, afterData, afterClose_outside hout] at hfails
      rcases hfails with hno | hno | hnone | ⟨hno, -⟩
      · apply (hplaced (.inl hno)).elim
      · apply (hplaced (.inr hno)).elim
      · have hsome := copiedTo_isSome (t := w.table) (dataAddr old) (dataAddr new) hopen.2
        rw [hnone] at hsome
        cases hsome
      · apply (hno hgranted).elim

end Outside

/-- What a call with a suitable new descriptor ends with is what is promised. -/
theorem Outcome.promised {r : Word} (hopen : w.IsOpen old) (hs : Suitable w old new)
    (h : Outcome w old new r w') :
  Promised w old new r w'
  := by
  constructor
  case refused =>
    intro hno
    have hout : ¬ InRange new := fun hnew => hno ⟨hopen, hnew⟩
    rcases h.refused hout hopen hs with ⟨herr, hturns⟩
    exact ⟨herr, hturns.entry_eq⟩
  case success =>
    intro _ hnew hok
    rcases hs.inside hnew with ⟨hne, hcond⟩
    rcases h with ⟨hr, -, -, hturns⟩ | ⟨herr, -⟩
    · use hr
      apply (duplicated_iff hopen.1 hnew hne hopen hturns).mpr hcond
    · rw [hok] at herr
      cases herr
  case failure =>
    intro _ hnew herr
    rcases hs.inside hnew with ⟨hne, -⟩
    have hold := h.old_fd hopen.1 hnew hne
    rcases h with ⟨rfl, -⟩ | ⟨-, -, hturns⟩
    · rw [hnew.isError] at herr
      cases herr
    · constructor
      · constructor
        · apply hopen.1
        · rw [hturns.self, hold]
          apply hopen.2
      · rintro ⟨-, hsome⟩
        rw [hturns.self, hturns.entry, droppedAt_of_ne (data_ne_fd new).symm,
          droppedAt_self hnew.userPageAddr_fd] at hsome
        cases hsome

/-- A descriptor that is made a duplicate of itself is closed. -/
theorem not_promised_self {r : Word} (hopen : w.IsOpen old) (h : Outcome w old old r w') :
  ¬ Promised w old old r w'
  := by
  intro hp
  have hold := hopen.1
  rcases h with ⟨rfl, -, -, hturns⟩ | ⟨herr, -⟩
  · have hnone : afterData w r r (PGNUM (INDEX2FD r)) = none := by
      rw [afterData, copiedTo_of_ne (hold.data_ne hold).symm, afterClose, closedAt, if_pos (inRange_iff.mp hold)]
      apply Function.update_self
    rw [copiedTo_none hnone] at hturns
    have hstill := (hp.success hopen hold hold.isError).2.still.2
    rw [hturns.self, hturns.entry, hnone] at hstill
    cases hstill
  · rcases hp.failure hopen hold herr with ⟨hstill, hclosed⟩
    apply hclosed hstill

/-- A descriptor for which all is as promised is suitable. -/
theorem suitable_of_promised {r : Word} (hopen : w.IsOpen old) (hgranted : w.Granted)
    (h : Outcome w old new r w') (hp : Promised w old new r w') :
  Suitable w old new
  := by
  by_cases hnew : InRange new
  · have hne : new ≠ old := by
      rintro rfl
      apply not_promised_self hopen h hp
    constructor
    case inside =>
      intro _
      use hne
      rcases h with ⟨rfl, -, -, hturns⟩ | ⟨-, hfails, -⟩
      · apply (duplicated_iff hopen.1 hnew hne hopen hturns).mp
        apply (hp.success hopen hnew hnew.isError).2
      · rcases hfails with hno | ⟨-, hno⟩ | hnone | ⟨hno, -⟩
        · apply (hno hnew.userPageAddr_fd).elim
        · apply (hno hnew.userPageAddr_data).elim
        · rw [afterData, copiedTo_of_ne (hnew.data_ne hopen.1).symm, afterClose,
            closedAt_of_ne (hopen.1.fd_inj hnew hne.symm)] at hnone
          have hsome : (w.table (PGNUM (INDEX2FD old))).isSome := hopen.2
          rw [hnone] at hsome
          cases hsome
        · apply (hno hgranted).elim
    case misplaced =>
      intro hout
      apply (hout hnew).elim
    case placed =>
      intro hout
      apply (hout hnew).elim
  · rcases hp.refused (fun hboth => hnew hboth.2) with ⟨herr, hsame⟩
    apply suitable_of_refused hnew hopen hgranted h herr hsame

/-- Where `old` is not open, `dup` fails and nothing changes. -/
theorem dup_closed (hclosed : ¬ w.IsOpen old) (new : Word) :
  dup old new w = .ok (-E_INVAL, w)
  := by
  have hlookup : fdLookup old w = .ok (.error (-E_INVAL), w) := by
    rw [fdLookup_ite, if_neg]
    rintro ⟨hlt, hsome⟩
    apply hclosed ⟨inRange_iff.mpr hlt, hsome⟩
  rw [dup, bind_of_eq hlookup]
  rfl

/-- What is suitable has nothing to do with the answers. -/
theorem suitable_fated {fate tables : Nat → Word} :
  Suitable (w.fated fate tables) old new ↔ Suitable w old new
  := by
  constructor
  · intro h
    exact ⟨h.inside, h.misplaced, h.placed⟩
  · intro h
    exact ⟨h.inside, h.misplaced, h.placed⟩

/-- What `dup` does with all the memory it needs shows whether the descriptors are suitable. -/
theorem Kept.suitable (huser : w.ForUser) (hkept : Kept w old new) (hopen : w.IsOpen old) :
  Suitable w old new
  := by
  have hgranted : (w.fated (fun _ => 0) (fun _ => 0)).Granted := fun _ => rfl
  have hopen' : (w.fated (fun _ => 0) (fun _ => 0)).IsOpen old := hopen
  have hends := dup_turns hopen' huser new
  cases hrun : dup old new (w.fated (fun _ => 0) (fun _ => 0)) with
  | ok _ =>
      apply suitable_fated.mp
      apply suitable_of_promised hopen' hgranted (hends.of_eq hrun) ((hkept _ _).of_eq hrun)
  | error stop => apply ((hends.of_error hrun).2.2 hgranted).elim

theorem Suitable.kept (huser : w.ForUser) (hs : w.IsOpen old → Suitable w old new) :
  Kept w old new
  := by
  intro fate tables
  by_cases hopen : w.IsOpen old
  · have hopen' : (w.fated fate tables).IsOpen old := hopen
    have hends := dup_turns hopen' huser new
    cases hrun : dup old new (w.fated fate tables) with
    | ok _ =>
        rw [endsOr_of_eq hrun]
        apply (hends.of_eq hrun).promised hopen' (suitable_fated.mpr (hs hopen))
    | error stop =>
        rw [endsOr_of_error hrun]
        rcases hends.of_error hrun with ⟨hstop, hnew, -⟩
        exact ⟨hstop, hnew⟩
  · rw [endsOr_of_eq (dup_closed (w := w.fated fate tables) hopen new)]
    constructor
    case refused =>
      intro _
      exact ⟨rfl, fun _ _ => rfl⟩
    case success =>
      intro hyes
      apply (hopen hyes).elim
    case failure =>
      intro hyes
      apply (hopen hyes).elim

/-- `dup` keeps what is promised for the descriptors that are suitable, and for no others. -/
theorem kept_iff (huser : w.ForUser) :
  Kept w old new ↔ (w.IsOpen old → Suitable w old new)
  := by
  constructor
  · intro hkept
    apply hkept.suitable huser
  · intro hs
    apply Suitable.kept huser hs

/-- A program with one open descriptor, `0`. -/
def oneOpen : World :=
  twoProcs (fun n => if n = 0xD0000 then some ⟨0, PTE_PUW⟩ else none) (fun _ => 0) 1

theorem oneOpen_forUser :
  oneOpen.ForUser
  := by
  intro va m _ hm
  change (if PGNUM va = 0xD0000 then some _ else none) = some m at hm
  split at hm
  case isTrue =>
    rcases Option.some.inj hm with rfl
    decide
  case isFalse => cases hm

theorem oneOpen_isOpen :
  oneOpen.IsOpen 0
  := ⟨by decide, rfl⟩

/-- The descriptor `0` is duplicated at `1`. -/
theorem kept_oneOpen :
  Kept oneOpen 0 1
  := by
  apply (kept_iff oneOpen_forUser).mpr
  intro _
  constructor
  case inside =>
    intro _
    exact ⟨by decide, .inr rfl⟩
  case misplaced =>
    intro hout
    apply (hout (by decide)).elim
  case placed =>
    intro hout
    apply (hout (by decide)).elim

/-- The descriptor `0` is not duplicated at `0`, but closed. -/
theorem not_kept :
  ¬ ∀ (w : World) (old new : Word), w.ForUser → Kept w old new
  := by
  intro hall
  have hkept := hall oneOpen 0 0 oneOpen_forUser
  apply ((hkept.suitable oneOpen_forUser oneOpen_isOpen).inside oneOpen_isOpen.1).1
  rfl

end User

end Jos
