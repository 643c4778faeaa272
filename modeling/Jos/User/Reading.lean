import Jos.User.Cleanup

/-!
# What is read through a descriptor

As long as the file server can be reached, a descriptor that is open may be read: an answer is an
error, or the bytes of the file at the position of the descriptor, which then moves on.  What
is read goes to the buffer it is meant for, and nothing else of memory changes.
-/

namespace Jos

namespace User

open Bytes Prog View

variable {B : Stop World → Prop} {w w' w'' : World} {i q : Nat} {fileid : Word} {f : File}

/-! ### Numbers that are not negative -/

theorem isError_iff (r : Word) :
  isError r = false ↔ r.toNat < 2 ^ 31
  := by
  have hzero : (0 : Word).toInt = 0 := by decide
  rw [isError, BitVec.slt, hzero, decide_eq_false_iff_not, BitVec.toInt_eq_toNat_cond]
  split
  case isTrue => omega
  case isFalse => omega

theorem small_ok {k : Nat} (hk : k < 2 ^ 31) :
  isError (BitVec.ofNat 32 k) = false
  := by
  rw [isError_iff, BitVec.toNat_ofNat]
  omega

/-! ### Runs that ask, and write to some addresses -/

/-- From `w` to `w'` requests were answered, and memory changed at addresses with the property `P`
only. -/
structure Served (P : Nat → Prop) (w w' : World) : Prop where
  self : w'.self = w.self
  procs : w'.procs = w.procs
  next : w'.next = w.next
  disk : w'.disk = w.disk
  files : w'.files = w.files
  fate : ∃ k, w'.fate = fun n => w.fate (n + k)
  tables : ∃ k, w'.tables = fun n => w.tables (n + k)
  mem : ∀ x, ¬ P x → w'.mem x = w.mem x

/-- Page tables are to be had. -/
def World.Granted (w : World) : Prop :=
  ∀ n, isError (w.tables n) = false

/-- No request is refused. -/
def World.Willing (w : World) : Prop :=
  ∀ n, isError (w.fate n) = false

namespace Served

variable {P P' : Nat → Prop}

theorem composes :
  Composes (Served P)
  := by
  constructor
  case refl => exact fun w => ⟨rfl, rfl, rfl, rfl, rfl, ⟨0, rfl⟩, ⟨0, rfl⟩, fun _ _ => rfl⟩
  case trans =>
    intro w w' w'' h h'
    constructor
    case self => exact h'.self.trans h.self
    case procs => exact h'.procs.trans h.procs
    case next => exact h'.next.trans h.next
    case disk => exact h'.disk.trans h.disk
    case files => exact h'.files.trans h.files
    case fate =>
      obtain ⟨k, hk⟩ := h.fate
      obtain ⟨k', hk'⟩ := h'.fate
      use k' + k
      rw [hk', hk]
      funext n
      exact congrArg w.fate (Nat.add_assoc n k' k)
    case tables =>
      obtain ⟨k, hk⟩ := h.tables
      obtain ⟨k', hk'⟩ := h'.tables
      use k' + k
      rw [hk', hk]
      funext n
      exact congrArg w.tables (Nat.add_assoc n k' k)
    case mem => exact fun x hx => (h'.mem x hx).trans (h.mem x hx)

theorem mono (h : Served P w w') (hP : ∀ x, P x → P' x) :
  Served P' w w'
  := ⟨h.self, h.procs, h.next, h.disk, h.files, h.fate, h.tables,
    fun x hx => h.mem x (fun hx' => hx (hP x hx'))⟩

theorem sameProcs (h : Served P w w') :
  SameProcs w w'
  := ⟨h.self, h.procs, Nat.le_of_eq h.next.symm⟩

theorem translate (h : Served P w w') :
  w'.translate = w.translate
  := by
  funext e perm va
  rw [World.translate, World.translate, h.sameProcs.entry]

theorem granted (h : Served P w w') (hg : w.Granted) :
  w'.Granted
  := by
  obtain ⟨k, hk⟩ := h.tables
  intro n
  rw [hk]
  exact hg _

theorem willing (h : Served P w w') (hg : w.Willing) :
  w'.Willing
  := by
  obtain ⟨k, hk⟩ := h.fate
  intro n
  rw [hk]
  exact hg _

theorem wf (h : Served P w w') (hw : w.Wf) :
  w'.Wf
  := by
  constructor
  case self_ne =>
    rw [h.self]
    exact hw.self_ne
  case running =>
    rw [h.procs, h.self]
    exact hw.running
  case fresh =>
    rw [h.sameProcs.entry, h.next]
    exact hw.fresh

theorem setMem {m : Memory} (h : ∀ x, ¬ P x → m x = w.mem x) :
  Served P w (w.setMem m)
  := ⟨rfl, rfl, rfl, rfl, rfl, ⟨0, rfl⟩, ⟨0, rfl⟩, h⟩

theorem asked :
  Served P w w.asked
  := ⟨rfl, rfl, rfl, rfl, rfl, ⟨1, rfl⟩, ⟨0, rfl⟩, fun _ _ => rfl⟩

theorem askedTable :
  Served P w w.askedTable
  := ⟨rfl, rfl, rfl, rfl, rfl, ⟨0, rfl⟩, ⟨1, rfl⟩, fun _ _ => rfl⟩

end Served

/-! ### Files and the descriptors they are open at -/

theorem File.read_length {offset : Word} {n : Nat} {bs : List Byte} (h : f.read offset n = .ok bs) :
  bs.length ≤ n
  := by
  rw [File.read] at h
  split at h
  case isTrue => exact f.short _ _ _ h
  case isFalse =>
    cases h
    exact List.length_take_le _ _

/-- At an offset that is not negative the file is read. -/
theorem File.read_eq {offset : Word} (h : isError offset = false) (n : Nat) :
  f.read offset n = .ok ((f.data.drop offset.toNat).take n)
  := by
  rw [File.read, if_neg]
  rw [isError] at h
  rw [h]
  exact Bool.false_ne_true

theorem File.read_error {offset r : Word} {n : Nat} (h : f.read offset n = .error r) :
  isError r = true
  := by
  rw [File.read] at h
  split at h
  case isTrue => exact f.refused _ _ _ h
  case isFalse => cases h

/-- At most `n` bytes are read from the offset on, round by round, and no round meets an error. -/
inductive File.Reads (f : File) : Word → Nat → Prop
  | all {offset : Word} : f.Reads offset 0
  | stop {offset : Word} {n : Nat} : f.read offset (min n PGSIZE) = .ok [] → f.Reads offset n
  | more {offset : Word} {n : Nat} {bs : List Byte} : f.read offset (min n PGSIZE) = .ok bs →
      f.Reads (offset + BitVec.ofNat 32 bs.length) (n - bs.length) → f.Reads offset n

/-- A first round that reads something leaves the rest to the others. -/
theorem File.Reads.rest {offset : Word} {n : Nat} {bs : List Byte} (h : f.Reads offset n)
    (hread : f.read offset (min n PGSIZE) = .ok bs) (hne : 0 < bs.length) :
  f.Reads (offset + BitVec.ofNat 32 bs.length) (n - bs.length)
  := by
  cases h with
  | all =>
      have hlen := File.read_length hread
      omega
  | stop hstop =>
      obtain rfl := Except.ok.inj (hstop.symm.trans hread)
      cases hne
  | more hmore hrest =>
      obtain rfl := Except.ok.inj (hmore.symm.trans hread)
      exact hrest

/-- An error in the first round is met. -/
theorem File.Reads.first {offset r : Word} {n : Nat} (h : f.Reads offset n) (hn : 0 < n) :
  f.read offset (min n PGSIZE) ≠ .error r
  := by
  intro herr
  cases h with
  | all => cases hn
  | stop hstop => cases hstop.symm.trans herr
  | more hmore _ => cases hmore.symm.trans herr

/-- From an offset that is not negative on, all rounds read the file. -/
theorem File.reads_of_nonneg {offset : Word} (h : isError offset = false) (n : Nat) :
  f.Reads offset n
  := by
  induction n using Nat.strong_induction_on generalizing offset with
  | _ n ih =>
      obtain rfl | hpos := Nat.eq_zero_or_pos n
      · exact .all
      · have hread := File.read_eq (f := f) h (min n PGSIZE)
        obtain ⟨bs, hbs⟩ : ∃ bs, bs = (f.data.drop offset.toNat).take (min n PGSIZE) := ⟨_, rfl⟩
        rw [← hbs] at hread
        obtain hnil | hlen := Nat.eq_zero_or_pos bs.length
        · rw [List.length_eq_zero_iff.mp hnil] at hread
          exact .stop hread
        · apply File.Reads.more hread
          apply ih _ (by omega)
          -- the next offset lies in the file, too
          have hsmall := f.small
          have hdata := congrArg List.length hbs
          rw [List.length_take, List.length_drop] at hdata
          rw [isError_iff, BitVec.toNat_add, BitVec.toNat_ofNat]
          omega

/-- The descriptor `i` is open for the file `f`, and its `struct Fd` is the page `q`. -/
structure World.Opened (w : World) (i q : Nat) (fileid : Word) (f : File) : Prop where
  small : i < MAXFD
  mapped : w.entry w.self (fdAddr i) = some ⟨q, PTE_PUW⟩
  dev : read32 w.mem (q * PGSIZE) = DEV_FILE
  mode : read32 w.mem (q * PGSIZE + 8) &&& O_ACCMODE ≠ O_WRONLY
  named : read32 w.mem (q * PGSIZE + 12) = fileid
  file : w.files fileid = some (f, q)

/-- The position of a descriptor, as its `struct Fd` has it. -/
def World.position (w : World) (q : Nat) : Word :=
  read32 w.mem (q * PGSIZE + 4)

/-- Set the position. -/
def World.setPosition (w : World) (q : Nat) (offset : Word) : World :=
  w.setMem (write32 w.mem (q * PGSIZE + 4) offset)

/-- Where the position is kept. -/
def AtPosition (q x : Nat) : Prop :=
  q * PGSIZE + 4 ≤ x ∧ x < q * PGSIZE + 8

theorem position_setPosition (offset : Word) :
  (w.setPosition q offset).position q = offset
  := read32_write32 _ _ _

theorem Served.setPosition (offset : Word) :
  Served (AtPosition q) w (w.setPosition q offset)
  := by
  apply Served.setMem
  intro x hx
  apply write32_of_disjoint
  rw [AtPosition] at hx
  omega

/-- The bytes of a page that is mapped for writing. -/
theorem translate_page {e va : Word} {p o : Nat} (hva : va.toNat % PGSIZE = 0)
    (hentry : w.entry e va = some ⟨p, PTE_PUW⟩) (ho : o < PGSIZE) :
  w.translate e (PTE_U ||| PTE_W) (off va o) = some (p * PGSIZE + o)
  := by
  obtain ⟨hnum, hoff⟩ := off_page hva ho
  have hperm : PTE_PUW &&& (PTE_U ||| PTE_W) = PTE_U ||| PTE_W := by decide
  rw [translate_eq_some]
  use ⟨p, PTE_PUW⟩
  constructor
  · rw [← hentry, World.entry, World.entry, hnum]
  · rw [hoff]
    exact ⟨hperm, rfl⟩

namespace World.Opened

variable (h : w.Opened i q fileid f)
include h

theorem addr_aligned :
  (fdAddr i).toNat % PGSIZE = 0
  := (userPageAddr_fdAddr h.small).2

theorem translate {o : Nat} (ho : o < PGSIZE) :
  w.translate w.self (PTE_U ||| PTE_W) (off (fdAddr i) o) = some (q * PGSIZE + o)
  := translate_page h.addr_aligned h.mapped ho

theorem load32 {o : Nat} (ho : o + 4 ≤ PGSIZE) :
  User.load32 (off (fdAddr i) o) w = .ok (read32 w.mem (q * PGSIZE + o), w)
  := by
  apply load32_eq
  apply word_of_bytes
  intro k hk
  rw [off_off, view_eq_some, Nat.add_assoc]
  use q * PGSIZE + (o + k), translate_of_writable (h.translate (by omega))

theorem lookup :
  fdLookup (BitVec.ofNat 32 i) w = .ok (.ok (fdAddr i), w)
  := by
  rw [fdLookup_eq h.small, h.mapped]
  rfl

theorem seek_eq (offset : Word) :
  seek (BitVec.ofNat 32 i) offset w = .ok (0, w.setPosition q offset)
  := by
  have hstore : store32 (off (fdAddr i) 4) offset w = .ok ((), w.setPosition q offset) := by
    apply store32_eq
    intro k hk
    rw [off_off, Nat.add_assoc]
    apply h.translate
    simp only [PGSIZE]
    omega
  rw [seek, bind_of_eq h.lookup]
  simp only
  rw [bind_of_eq hstore]
  rfl

/-- A descriptor stays open if nothing of its `struct Fd` changes but the position. -/
theorem congr (hentry : w'.entry w'.self (fdAddr i) = w.entry w.self (fdAddr i))
    (hfiles : w'.files = w.files)
    (hmem : ∀ x, q * PGSIZE ≤ x → x < q * PGSIZE + PGSIZE → ¬ AtPosition q x → w'.mem x = w.mem x) :
  w'.Opened i q fileid f
  := by
  have hread : ∀ {o}, o + 4 ≤ PGSIZE → (o + 4 ≤ 4 ∨ 8 ≤ o) →
      read32 w'.mem (q * PGSIZE + o) = read32 w.mem (q * PGSIZE + o) := by
    intro o ho hout
    apply read32_congr
    intro x hx hx'
    apply hmem x (by omega) (by omega)
    rw [AtPosition]
    omega
  have h4 : 0 + 4 ≤ PGSIZE := by decide
  have h12 : 8 + 4 ≤ PGSIZE := by decide
  have h16 : 12 + 4 ≤ PGSIZE := by decide
  constructor
  case small => exact h.small
  case mapped => exact hentry.trans h.mapped
  case dev =>
    have hdev := hread h4 (Or.inl (Nat.le_refl 4))
    rw [Nat.add_zero] at hdev
    exact hdev.trans h.dev
  case mode =>
    rw [hread h12 (Or.inr (Nat.le_refl 8))]
    exact h.mode
  case named =>
    rw [hread h16 (Or.inr (by omega))]
    exact h.named
  case file =>
    rw [hfiles]
    exact h.file

theorem served {P : Nat → Prop} (hs : Served P w w')
    (hP : ∀ x, q * PGSIZE ≤ x → x < q * PGSIZE + PGSIZE → P x → AtPosition q x) :
  w'.Opened i q fileid f
  := by
  apply h.congr
  · rw [hs.sameProcs.entry, hs.self]
  · exact hs.files
  · intro x hx hx' hat
    apply hs.mem
    exact fun hPx => hat (hP x hx hx' hPx)

end World.Opened

/-! ### Buffers -/

/-- The `n` bytes at `buf` may be written: they are the bytes `pa 0`, `pa 1`, ... of memory, none of
which comes twice. -/
structure World.Buffer (w : World) (buf : Word) (n : Nat) (pa : Nat → Nat) : Prop where
  writable : ∀ k < n, w.translate w.self (PTE_U ||| PTE_W) (off buf k) = some (pa k)
  inj : ∀ j < n, ∀ k < n, pa j = pa k → j = k

/-- One of the bytes `pa lo`, ..., `pa (hi - 1)`. -/
def Among (pa : Nat → Nat) (lo hi x : Nat) : Prop :=
  ∃ k, lo ≤ k ∧ k < hi ∧ x = pa k

variable {buf : Word} {n : Nat} {pa : Nat → Nat}

theorem World.Buffer.served {P : Nat → Prop} (h : w.Buffer buf n pa) (hs : Served P w w') :
  w'.Buffer buf n pa
  := by
  constructor
  case writable =>
    rw [hs.translate, hs.self]
    exact h.writable
  case inj => exact h.inj

/-- A page that is mapped for writing is a buffer. -/
theorem buffer_page {va : Word} {p : Nat} (hva : va.toNat % PGSIZE = 0)
    (hentry : w.entry w.self va = some ⟨p, PTE_PUW⟩) (hn : n ≤ PGSIZE) :
  w.Buffer va n (fun k => p * PGSIZE + k)
  := by
  constructor
  case writable => exact fun k hk => translate_page hva hentry (Nat.lt_of_lt_of_le hk hn)
  case inj => exact fun j _ k _ h => Nat.add_left_cancel h

/-- What is copied to a buffer is found there. -/
theorem memmove_eq {bs : List Byte} {o : Nat} (h : w.Buffer buf n pa) (hn : o + bs.length ≤ n) :
  ∃ m, memmove (off buf o) bs w = .ok ((), w.setMem m)
    ∧ (∀ j (hj : j < bs.length), m (pa (o + j)) = bs[j])
    ∧ ∀ x, ¬ Among pa o (o + bs.length) x → m x = w.mem x
  := by
  induction bs generalizing w o with
  | nil => exact ⟨w.mem, rfl, fun j hj => (Nat.not_lt_zero j hj).elim, fun _ _ => rfl⟩
  | cons b bs ih =>
      have hlen : (b :: bs).length = bs.length + 1 := List.length_cons
      rw [hlen] at hn
      have hstore := store_eq (h.writable o (by omega)) b
      obtain ⟨m1, hm1⟩ : ∃ m1, m1 = write8 w.mem (pa o) b := ⟨_, rfl⟩
      rw [← hm1] at hstore
      have h1 : (w.setMem m1).Buffer buf n pa := ⟨h.writable, h.inj⟩
      obtain ⟨m, heq, hbytes, hrest⟩ := ih (o := o + 1) h1 (by omega)
      use m
      constructor
      · rw [memmove, bind_of_eq hstore, off_off]
        exact heq
      constructor
      · intro j hj
        cases j with
        | zero =>
            have hb : m (pa o) = m1 (pa o) := by
              apply hrest
              rintro ⟨k, hk, hk', hpa⟩
              have hsame := h.inj o (by omega) k (by omega) hpa
              omega
            rw [Nat.add_zero, hb, hm1, write8, if_pos rfl]
            rfl
        | succ j =>
            rw [← Nat.add_assoc, Nat.add_right_comm, List.getElem_cons_succ]
            exact hbytes j (by omega)
      · rw [hlen]
        intro x hx
        rw [hrest x]
        · change m1 x = _
          rw [hm1, write8, if_neg]
          intro hxo
          exact hx ⟨o, Nat.le_refl _, by omega, hxo⟩
        · rintro ⟨k, hk, hk', hpa⟩
          exact hx ⟨k, by omega, by omega, hpa⟩

/-! ### The file server -/

/-- The answer to a request to read. -/
theorem serveRead_eq (hfile : w.files fileid = some (f, q)) (m : Word) :
  serveRead fileid m w =
    if isError (w.fate 0) then .ok (.error (w.fate 0), w.asked)
    else .ok (f.read (w.position q) (min m.toNat PGSIZE),
      w.asked.setPosition q (w.position q + nbytes (f.read (w.position q) (min m.toNat PGSIZE))))
  := by
  have hreq : request w = .ok (w.fate 0, w.asked) := rfl
  rw [serveRead, bind_of_eq hreq, get_bind]
  split
  case isTrue => rfl
  case isFalse =>
    have hfile' : w.asked.files fileid = some (f, q) := hfile
    rw [hfile']
    rfl

theorem fsipc_eq {α : Type} (serve : Prog World α) (ht : isError (w.tables 0) = false) :
  fsipc serve w = serve w.askedTable
  := by
  have hreq : requestTable w = .ok (w.tables 0, w.askedTable) := rfl
  rw [fsipc, bind_of_eq hreq, if_neg (by rw [ht]; exact Bool.false_ne_true)]

/-! ### Reading -/

/-- What a call of `read` for `n` bytes does that are to go to `buf` from `o` on: it fails, or reads
the bytes of the file at the position. -/
structure ReadEnd (f : File) (q : Nat) (pa : Nat → Nat) (o n : Nat) (w : World) (r : Word) (w' : World) :
    Prop where
  served : Served (fun x => AtPosition q x ∨ Among pa o (o + n) x) w w'
  bytes : isError r = false → ∃ bs, f.read (w.position q) (min n PGSIZE) = .ok bs
    ∧ r = BitVec.ofNat 32 bs.length ∧ w'.position q = w.position q + BitVec.ofNat 32 bs.length
    ∧ ∀ j (hj : j < bs.length), w'.mem (pa (o + j)) = bs[j]
  reads : w.Willing → ∀ bs, f.read (w.position q) (min n PGSIZE) = .ok bs → isError r = false

/-- The buffer is not part of the page `q`. -/
def Apart (pa : Nat → Nat) (n q : Nat) : Prop :=
  ∀ k < n, pa k < q * PGSIZE ∨ q * PGSIZE + PGSIZE ≤ pa k

theorem Apart.atPosition (h : Apart pa n q) {lo hi x : Nat} (hhi : hi ≤ n) (hx : q * PGSIZE ≤ x)
    (hx' : x < q * PGSIZE + PGSIZE) (hP : AtPosition q x ∨ Among pa lo hi x) :
  AtPosition q x
  := by
  obtain hP | ⟨k, -, hk, rfl⟩ := hP
  · exact hP
  · have hout := h k (by omega)
    omega

theorem read_ends {o m : Nat} (hop : w.Opened i q fileid f) (hbuf : w.Buffer buf n pa)
    (hapart : Apart pa n q) (htab : isError (w.tables 0) = false) (hm : o + m ≤ n) (hlt : m < 2 ^ 32) :
  (read (BitVec.ofNat 32 i) (off buf o) (BitVec.ofNat 32 m)).EndsOr B w (ReadEnd f q pa o m w)
  := by
  have hdev := hop.load32 (o := 0) (by decide)
  rw [off_zero, Nat.add_zero, hop.dev] at hdev
  have hmode := hop.load32 (o := 8) (by decide)
  have hid := hop.load32 (o := 12) (by decide)
  rw [hop.named] at hid
  have hfile : w.askedTable.files fileid = some (f, q) := hop.file
  have hm' : (BitVec.ofNat 32 m).toNat = m := by
    rw [BitVec.toNat_ofNat, Nat.mod_eq_of_lt hlt]
  rw [read, endsOr_bind, endsOr_of_eq hop.lookup]
  simp only
  rw [endsOr_bind, endsOr_of_eq hdev, if_neg (by decide), endsOr_bind, endsOr_of_eq hmode,
    if_neg hop.mode, devfileRead, endsOr_bind, endsOr_of_eq hid, endsOr_bind]
  have hserve : fsipc (serveRead fileid (BitVec.ofNat 32 m)) w = _ :=
    (fsipc_eq _ htab).trans (serveRead_eq hfile _)
  rw [hm'] at hserve
  split at hserve
  case isTrue herr =>
    have herr' : isError (w.fate 0) = true := herr
    rw [endsOr_of_eq hserve]
    simp only
    rw [endsOr_pure]
    constructor
    case served => exact Served.composes.trans Served.askedTable Served.asked
    case bytes =>
      intro hok
      have hok' : isError (w.fate 0) = false := hok
      rw [herr'] at hok'
      cases hok'
    case reads =>
      intro hwill
      rw [hwill 0] at herr'
      cases herr'
  case isFalse hok =>
    have hpos : w.askedTable.position q = w.position q := rfl
    rw [hpos] at hserve
    rw [endsOr_of_eq hserve]
    obtain ⟨w1, hw1⟩ : ∃ w1, w1 = w.askedTable.asked.setPosition q
        (w.position q + nbytes (f.read (w.position q) (min m PGSIZE))) := ⟨_, rfl⟩
    have hs1 : Served (AtPosition q) w w1 := by
      rw [hw1]
      exact Served.composes.trans (Served.composes.trans Served.askedTable Served.asked)
        (Served.setPosition _)
    have hpos1 : w1.position q = w.position q + nbytes (f.read (w.position q) (min m PGSIZE)) := by
      rw [hw1]
      exact position_setPosition _
    rw [← hw1]
    cases hread : f.read (w.position q) (min m PGSIZE) with
    | error r =>
        simp only
        rw [endsOr_pure]
        have herr := File.read_error hread
        constructor
        case served => exact hs1.mono (fun _ hx => Or.inl hx)
        case bytes =>
          intro hok'
          rw [herr] at hok'
          cases hok'
        case reads =>
          intro _ bs hbs
          rw [hread] at hbs
          cases hbs
    | ok bs =>
        have hlen := File.read_length hread
        have hroom : o + bs.length ≤ n := by omega
        obtain ⟨m2, hmove, hbytes, hrest⟩ := memmove_eq (hbuf.served hs1) hroom
        rw [hread] at hpos1
        simp only
        rw [endsOr_bind, endsOr_of_eq hmove, endsOr_pure]
        have hs2 : Served (Among pa o (o + bs.length)) w1 (w1.setMem m2) := Served.setMem hrest
        constructor
        case served =>
          apply Served.composes.trans (hs1.mono (fun _ hx => Or.inl hx)) (hs2.mono _)
          rintro x ⟨k, hk, hk', hpa⟩
          exact Or.inr ⟨k, hk, by omega, hpa⟩
        case bytes =>
          intro _
          refine ⟨bs, hread, rfl, ?_, hbytes⟩
          apply Eq.trans _ hpos1
          apply read32_congr
          intro x hx hx'
          apply hrest
          rintro ⟨k, -, hk, rfl⟩
          have hout := hapart k (by omega)
          simp only [PGSIZE] at hout hx hx'
          omega
        case reads =>
          intro _ _ _
          apply small_ok
          simp only [PGSIZE] at hlen
          omega

/-- What `readn` does that has read up to `tot` of `n` bytes: it fails, or reads up to `got` bytes,
which are those of the file at the position. -/
structure ReadnEnd (f : File) (q : Nat) (pa : Nat → Nat) (tot n : Nat) (w : World) (r : Word)
    (w' : World) : Prop where
  served : Served (fun x => AtPosition q x ∨ Among pa tot n x) w w'
  bytes : isError r = false → ∃ got, r = BitVec.ofNat 32 got ∧ tot ≤ got ∧ got ≤ n
    ∧ (isError (w.position q) = false → ∀ j, tot ≤ j → j < got →
      f.data[(w.position q).toNat + (j - tot)]? = some (w'.mem (pa j)))
  readable : isError r = false → f.Reads (w.position q) (n - tot)
  reads : w.Willing → f.Reads (w.position q) (n - tot) → isError r = false
  count : w.Willing → isError (w.position q) = false →
    r = BitVec.ofNat 32 (tot + min (n - tot) (f.data.length - (w.position q).toNat))

theorem readnFrom_ends {tot k : Nat} (hop : w.Opened i q fileid f) (hbuf : w.Buffer buf n pa)
    (hapart : Apart pa n q) (htab : w.Granted) (hn : n < 2 ^ 31) (htot : tot ≤ n) (hk : n - tot < k) :
  (readnFrom (BitVec.ofNat 32 i) buf (BitVec.ofNat 32 n) k (BitVec.ofNat 32 tot)).EndsOr B w
    (ReadnEnd f q pa tot n w)
  := by
  induction k generalizing w tot with
  | zero => omega
  | succ k ih =>
      have hnNat : (BitVec.ofNat 32 n).toNat = n := by
        rw [BitVec.toNat_ofNat]
        omega
      have htotNat : (BitVec.ofNat 32 tot).toNat = tot := by
        rw [BitVec.toNat_ofNat]
        omega
      rw [readnFrom, hnNat, htotNat]
      obtain rfl | hlt := Nat.eq_or_lt_of_le htot
      · rw [if_neg (Nat.lt_irrefl _), endsOr_pure]
        constructor
        case served => exact Served.composes.refl w
        case bytes => exact fun _ => ⟨tot, rfl, Nat.le_refl _, Nat.le_refl _, fun _ j hj hj' => by omega⟩
        case readable =>
          intro _
          rw [Nat.sub_self]
          exact .all
        case reads => exact fun _ _ => small_ok hn
        case count =>
          intro _ _
          rw [Nat.sub_self, Nat.zero_min, Nat.add_zero]
      · have hsub : BitVec.ofNat 32 n - BitVec.ofNat 32 tot = BitVec.ofNat 32 (n - tot) := by
          apply BitVec.eq_of_toNat_eq
          rw [BitVec.toNat_sub, hnNat, htotNat, BitVec.toNat_ofNat]
          omega
        rw [if_pos hlt, endsOr_bind, hsub]
        apply (read_ends (o := tot) (m := n - tot) hop hbuf hapart (htab 0) (by omega) (by omega)).mono
        intro r w1 h1
        have hserved1 : Served (fun x => AtPosition q x ∨ Among pa tot n x) w w1 := by
          apply h1.served.mono
          rintro x (hx | ⟨j, hj, hj', hx⟩)
          · exact Or.inl hx
          · exact Or.inr ⟨j, hj, by omega, hx⟩
        -- the file is read, unless that was refused
        have hread : w.Willing → f.Reads (w.position q) (n - tot) → isError r = false := by
          intro hwill hcan
          cases hfirst : f.read (w.position q) (min (n - tot) PGSIZE) with
          | error e => exact (hcan.first (by omega) hfirst).elim
          | ok bs => exact h1.reads hwill bs hfirst
        rw [endsOr_ite]
        constructor
        · intro herr
          rw [endsOr_pure]
          have hno : isError r = false → False := by
            intro hok
            rw [herr] at hok
            cases hok
          constructor
          case served => exact hserved1
          case bytes => exact fun hok => (hno hok).elim
          case readable => exact fun hok => (hno hok).elim
          case reads => exact fun hwill hcan => (hno (hread hwill hcan)).elim
          case count =>
            exact fun hwill hpos => (hno (hread hwill (File.reads_of_nonneg hpos _))).elim
        · intro hok
          rw [Bool.not_eq_true] at hok
          obtain ⟨bs, hbs, hr, hpos1, hbytes⟩ := h1.bytes hok
          have hlen := File.read_length hbs
          have hrNat : r.toNat = bs.length := by
            rw [hr, BitVec.toNat_ofNat]
            omega
          -- what was read, if the position is not negative
          have hdata : isError (w.position q) = false →
              bs = (f.data.drop (w.position q).toNat).take (min (n - tot) PGSIZE) := by
            intro hpos
            rw [File.read_eq hpos] at hbs
            exact (Except.ok.inj hbs).symm
          rw [endsOr_ite]
          constructor
          · intro hzero
            rw [endsOr_pure]
            have hnil : bs.length = 0 := by
              rw [← hrNat, hzero]
              rfl
            constructor
            case served => exact hserved1
            case bytes => exact fun _ => ⟨tot, rfl, Nat.le_refl _, htot, fun _ j hj hj' => by omega⟩
            case readable =>
              intro _
              rw [List.length_eq_zero_iff.mp hnil] at hbs
              exact .stop hbs
            case reads => exact fun _ _ => small_ok (by omega)
            case count =>
              intro _ hpos
              have hend : f.data.length - (w.position q).toNat = 0 := by
                have hpage : 0 < PGSIZE := by decide
                rw [hdata hpos, List.length_take, List.length_drop] at hnil
                omega
              rw [hend, Nat.min_zero, Nat.add_zero]
          · intro hne
            have hpositive : 0 < bs.length := by
              rw [← hrNat, Nat.pos_iff_ne_zero]
              intro hzero
              exact hne (BitVec.eq_of_toNat_eq hzero)
            have hadd : BitVec.ofNat 32 tot + r = BitVec.ofNat 32 (tot + bs.length) := by
              rw [hr, BitVec.ofNat_add]
            have hop1 : w1.Opened i q fileid f :=
              hop.served h1.served (fun x hx hx' => hapart.atPosition (by omega) hx hx')
            rw [hadd]
            have htot' : tot + bs.length ≤ n := by omega
            apply (ih hop1 (hbuf.served h1.served) (h1.served.granted htab) htot' (by omega)).mono
            intro r2 w2 h2
            -- the position in the middle
            have hmid : isError (w.position q) = false →
                isError (w1.position q) = false
                  ∧ (w1.position q).toNat = (w.position q).toNat + bs.length
                  ∧ (w.position q).toNat + bs.length ≤ f.data.length := by
              intro hpos
              have hfits : (w.position q).toNat + bs.length ≤ f.data.length := by
                have hlen' := congrArg List.length (hdata hpos)
                rw [List.length_take, List.length_drop] at hlen'
                omega
              have hsmall := f.small
              have hnext : (w1.position q).toNat = (w.position q).toNat + bs.length := by
                rw [hpos1, BitVec.toNat_add, BitVec.toNat_ofNat]
                omega
              refine ⟨?_, hnext, hfits⟩
              rw [isError_iff, hnext]
              omega
            constructor
            case served =>
              apply Served.composes.trans hserved1 (h2.served.mono _)
              rintro x (hx | ⟨j, hj, hj', hx⟩)
              · exact Or.inl hx
              · exact Or.inr ⟨j, by omega, hj', hx⟩
            case bytes =>
              intro hok2
              obtain ⟨got, hgot, htotgot, hgotn, hrest⟩ := h2.bytes hok2
              refine ⟨got, hgot, by omega, hgotn, ?_⟩
              intro hpos j hj hj'
              obtain ⟨hpos1', hnext, hfits⟩ := hmid hpos
              by_cases hfirst : j < tot + bs.length
              · -- a byte of the first part, which was not touched again
                have hsame : w2.mem (pa j) = w1.mem (pa j) := by
                  apply h2.served.mem
                  rintro (hx | ⟨l, hl, hl', hx⟩)
                  · have hout := hapart j (by omega)
                    rw [AtPosition] at hx
                    simp only [PGSIZE] at hx hout
                    omega
                  · have hjl := hbuf.inj j (by omega) l (by omega) hx
                    omega
                have hbyte := hbytes (j - tot) (by omega)
                rw [Nat.add_sub_cancel' hj] at hbyte
                rw [hsame, hbyte]
                have hbs' : bs[j - tot]? = some bs[j - tot] := List.getElem?_eq_getElem (by omega)
                rw [← hbs', hdata hpos, List.getElem?_take_of_lt, List.getElem?_drop]
                omega
              · have hbyte := hrest hpos1' j (by omega) hj'
                rw [hnext] at hbyte
                rw [← hbyte]
                congr 1
                omega
            case readable =>
              intro hok2
              have hrest := h2.readable hok2
              rw [hpos1, ← Nat.sub_sub] at hrest
              exact .more hbs hrest
            case reads =>
              intro hwill hcan
              apply h2.reads (h1.served.willing hwill)
              rw [hpos1, ← Nat.sub_sub]
              exact hcan.rest hbs hpositive
            case count =>
              intro hwill hpos
              obtain ⟨hpos1', hnext, hfits⟩ := hmid hpos
              rw [h2.count (h1.served.willing hwill) hpos1', hnext]
              congr 1
              omega

/-- `readn` fails, or reads up to `got` bytes to the buffer. -/
theorem readn_ends (hop : w.Opened i q fileid f) (hbuf : w.Buffer buf n pa) (hapart : Apart pa n q)
    (htab : w.Granted) (hn : n < 2 ^ 31) :
  (readn (BitVec.ofNat 32 i) buf (BitVec.ofNat 32 n)).EndsOr B w (ReadnEnd f q pa 0 n w)
  := by
  apply readnFrom_ends hop hbuf hapart htab hn (Nat.zero_le n)
  rw [BitVec.toNat_ofNat]
  omega

/-! ### Opening and closing -/

/-- The file `f` is opened as the first answer says, and its `struct Fd` mapped at the descriptor
`i`. -/
def World.openAt (w : World) (i : Nat) (f : File) : World :=
  World.setEntry { w.setMem (fdPage w.mem w.next (w.fate 0)) with
    next := w.next + 1
    files := Function.update w.files (w.fate 0) (some (f, w.next))
    fate := fun n => w.fate (n + 1)
    tables := fun n => w.tables (n + 2) } w.self (fdAddr i) (some ⟨w.next, PTE_PUW⟩)

/-- The page of a `struct Fd` is all that changes in memory. -/
theorem fdPage_of_disjoint (m : Memory) (q : Nat) (a : Word) {x : Nat}
    (hx : x < q * PGSIZE ∨ q * PGSIZE + PGSIZE ≤ x) :
  fdPage m q a x = m x
  := by
  have h16 : 16 ≤ PGSIZE := by decide
  rw [fdPage, write32_of_disjoint _ _ (by omega), write32_of_disjoint _ _ (by omega), fill,
    if_neg (by omega)]

theorem openAt_opened (hw : w.Wf) (hi : i < MAXFD) (f : File) :
  (w.openAt i f).Opened i w.next (w.fate 0) f
  := by
  have hclear : ∀ {o}, o + 4 ≤ PGSIZE →
      read32 (fill w.mem (w.next * PGSIZE) PGSIZE 0) (w.next * PGSIZE + o) = 0 :=
    fun ho => read32_fill_zero _ (by omega) (by omega)
  constructor
  case small => exact hi
  case mapped => exact entry_setEntry hw.running rfl _
  case dev =>
    change read32 (fdPage _ _ _) _ = _
    rw [fdPage, read32_write32_of_disjoint _ _ (by omega), read32_write32]
  case mode =>
    change read32 (fdPage _ _ _) _ &&& _ ≠ _
    rw [fdPage, read32_write32_of_disjoint _ _ (by omega), read32_write32_of_disjoint _ _ (by omega),
      hclear (by decide)]
    decide
  case named =>
    change read32 (fdPage _ _ _) _ = _
    rw [fdPage, read32_write32]
  case file => exact Function.update_self _ _ _

theorem openAt_position (f : File) :
  (w.openAt i f).position w.next = 0
  := by
  change read32 (fdPage _ _ _) _ = _
  rw [fdPage, read32_write32_of_disjoint _ _ (by omega), read32_write32_of_disjoint _ _ (by omega)]
  exact read32_fill_zero _ (by omega) (by simp only [PGSIZE]; omega)

theorem openAt_wf (hw : w.Wf) (f : File) :
  (w.openAt i f).Wf
  := by
  have hnext : World.Wf { w.setMem (fdPage w.mem w.next (w.fate 0)) with
      next := w.next + 1
      files := Function.update w.files (w.fate 0) (some (f, w.next))
      fate := fun n => w.fate (n + 1)
      tables := fun n => w.tables (n + 2) } :=
    ⟨hw.self_ne, hw.running, fun e va m hm => Nat.lt_succ_of_lt (hw.fresh e va m hm)⟩
  apply hnext.setEntry
  intro m hm
  obtain rfl := Option.some.inj hm
  exact Nat.lt_succ_self _

theorem loadBytes_eq {s : Word} {bs : List Byte}
    (h : ∀ k (hk : k < bs.length), w.view w.self (off s k) = some bs[k]) :
  loadBytes s bs.length w = .ok (bs, w)
  := by
  induction bs generalizing s with
  | nil => rfl
  | cons b bs ih =>
      have h0 := h 0 (by rw [List.length_cons]; omega)
      rw [off_zero] at h0
      have hrest : loadBytes (off s 1) bs.length w = .ok (bs, w) := by
        apply ih
        intro k hk
        rw [off_off, Nat.add_comm]
        exact h (k + 1) (by rw [List.length_cons]; omega)
      rw [List.length_cons, loadBytes, bind_of_eq (load_eq h0), bind_of_eq hrest]
      rfl

/-- The file `name` can be opened: its name is not too long, a descriptor is free, and the file
server opens it under an identifier that is not in use. -/
structure World.CanOpen (w : World) (name : List Byte) : Prop where
  short : name.length < MAXPATHLEN
  free : ∃ i < MAXFD, w.entry w.self (fdAddr i) = none
  willing : isError (w.fate 0) = false
  new : w.files (w.fate 0) = none

/-- A file is not opened, or it is opened at a descriptor that was free. -/
theorem openFile_cases {path : Word} {name : List Byte} (hstr : (w.view w.self).Str path name)
    (htab : w.Granted) :
  (∃ r w', openFile path w = .ok (.error r, w') ∧ isError r = true ∧ ¬ w.CanOpen name
    ∧ Served (fun _ => False) w w') ∨
  ∃ i < MAXFD, w.entry w.self (fdAddr i) = none ∧ isError (w.fate 0) = false
    ∧ w.files (w.fate 0) = none ∧ name.length < MAXPATHLEN
    ∧ openFile path w = .ok (.ok (BitVec.ofNat 32 i), w.openAt i (w.disk name))
  := by
  have hlenNat : (BitVec.ofNat 32 name.length).toNat = name.length := by
    rw [BitVec.toNat_ofNat, Nat.mod_eq_of_lt hstr.length_lt]
  rw [openFile, bind_of_eq (strlen_eq hstr), hlenNat]
  by_cases hlong : name.length ≥ MAXPATHLEN
  · left
    rw [if_pos hlong]
    exact ⟨_, w, rfl, rfl, fun hcan => Nat.not_lt.mpr hlong hcan.short, Served.composes.refl w⟩
  rw [if_neg hlong]
  obtain ⟨hall, heq⟩ | ⟨i, hi, hnone, heq⟩ := fdAlloc_cases w
  · left
    rw [bind_of_eq heq]
    refine ⟨_, w, rfl, rfl, fun hcan => ?_, Served.composes.refl w⟩
    obtain ⟨i, hi, hnone⟩ := hcan.free
    have hsome := hall i hi
    rw [hnone] at hsome
    cases hsome
  rw [bind_of_eq heq]
  simp only
  rw [bind_of_eq (loadBytes_eq (fun k hk => hstr.bytes k hk))]
  have hclosed : ∀ {w1}, Served (fun _ => False) w w1 → fdClose (fdAddr i) false w1 = .ok (0, w1) := by
    intro w1 h1
    have hlookup : fdLookup (BitVec.ofNat 32 i) w1 = .ok (.error (-E_INVAL), w1) := by
      rw [fdLookup_eq hi, if_neg]
      rw [h1.sameProcs.entry, h1.self, hnone]
      exact Bool.false_ne_true
    rw [fdClose, fd2num_fdAddr hi, bind_of_eq hlookup]
    rfl
  have hasked : Served (fun _ => False) w w.askedTable.asked :=
    Served.composes.trans Served.askedTable Served.asked
  have hreq : request w.askedTable = .ok (w.fate 0, w.askedTable.asked) := rfl
  by_cases herr : isError (w.fate 0) = true
  · left
    have hserve : fsipc (serveOpen name) w = .ok (.error (w.fate 0), w.askedTable.asked) := by
      rw [fsipc_eq _ (htab 0), serveOpen, bind_of_eq hreq, get_bind, if_pos herr]
      rfl
    rw [bind_of_eq hserve]
    simp only
    rw [bind_of_eq (hclosed hasked)]
    refine ⟨_, _, rfl, herr, fun hcan => ?_, hasked⟩
    have hwill := hcan.willing
    rw [herr] at hwill
    cases hwill
  cases hfile : w.files (w.fate 0) with
  | some file =>
      left
      have hfile' : (w.askedTable.asked.files (w.fate 0)).isSome := by
        change (w.files (w.fate 0)).isSome
        rw [hfile]
        rfl
      have hserve : fsipc (serveOpen name) w = .ok (.error (-E_MAX_OPEN), w.askedTable.asked) := by
        rw [fsipc_eq _ (htab 0), serveOpen, bind_of_eq hreq, get_bind, if_neg herr, if_pos hfile']
        rfl
      rw [bind_of_eq hserve]
      simp only
      rw [bind_of_eq (hclosed hasked)]
      refine ⟨_, _, rfl, rfl, fun hcan => ?_, hasked⟩
      have hnew := hcan.new
      rw [hfile] at hnew
      cases hnew
  | none =>
      right
      rw [Bool.not_eq_true] at herr
      refine ⟨i, hi, hnone, herr, rfl, Nat.lt_of_not_ge hlong, ?_⟩
      have hfile' : ¬ (w.askedTable.asked.files (w.fate 0)).isSome := by
        change ¬ (w.files (w.fate 0)).isSome
        rw [hfile]
        exact Bool.false_ne_true
      obtain ⟨w1, hw1⟩ : ∃ w1, w1 = { w.askedTable.asked.setMem (fdPage w.mem w.next (w.fate 0)) with
          next := w.next + 1
          files := Function.update w.files (w.fate 0) (some (w.disk name, w.next)) } := ⟨_, rfl⟩
      have hserve : fsipc (serveOpen name) w = .ok (.ok w.next, w1) := by
        rw [fsipc_eq _ (htab 0), serveOpen, bind_of_eq hreq, get_bind, if_neg (by rw [herr]; decide),
          if_neg hfile', hw1]
        rfl
      have htable : requestTable w1 = .ok (w.tables 1, w1.askedTable) := by
        rw [hw1]
        rfl
      rw [bind_of_eq hserve]
      simp only
      rw [bind_of_eq htable, if_neg (by rw [htab 1]; exact Bool.false_ne_true), modify_bind,
        fd2num_fdAddr hi, hw1]
      rfl

/-- A descriptor that is open is closed. Memory stays as it is. -/
theorem close_ends (hop : w.Opened i q fileid f) (hrun : (w.procs w.self).isSome)
    (htab : isError (w.tables 0) = false) :
  (close (BitVec.ofNat 32 i)).EndsOr B w (fun _ w' =>
    ∃ w1, Served (fun _ => False) w w1 ∧ w' = w1.setEntry w.self (fdAddr i) none)
  := by
  have hdev := hop.load32 (o := 0) (by decide)
  rw [off_zero, Nat.add_zero, hop.dev] at hdev
  have hid := hop.load32 (o := 12) (by decide)
  rw [hop.named] at hid
  have hunmap : ∀ {r : Word} {w1}, Served (fun _ => False) w w1 →
      (sysPageUnmap 0 (fdAddr i) >>= fun _ => (pure r : Prog World Word)).EndsOr B w1 (fun _ w' =>
        ∃ w1, Served (fun _ => False) w w1 ∧ w' = w1.setEntry w.self (fdAddr i) none) := by
    intro r w1 h1
    have hkey : w1.key 0 = w.self := by rw [World.key, if_pos rfl, h1.self]
    obtain ⟨p, hp⟩ := Option.isSome_iff_exists.mp hrun
    have hfind : w1.find 0 = some p := by rw [World.find, hkey, h1.procs, hp]
    rw [endsOr_bind, endsOr_of_eq (sysPageUnmap_eq (userPageAddr_fdAddr hop.small) hfind), endsOr_pure,
      hkey]
    exact ⟨w1, h1, rfl⟩
  rw [close, endsOr_bind, endsOr_of_eq hop.lookup]
  simp only
  rw [fdClose, endsOr_bind, fd2num_fdAddr hop.small, endsOr_of_eq hop.lookup]
  simp only
  rw [if_neg (not_not.mpr rfl), endsOr_bind, endsOr_of_eq hdev, endsOr_bind, devClose,
    if_neg (by decide), devfileFlush, endsOr_bind, endsOr_of_eq hid]
  have hreq : request w.askedTable = .ok (w.fate 0, w.askedTable.asked) := rfl
  have hasked : Served (fun _ => False) w w.askedTable.asked :=
    Served.composes.trans Served.askedTable Served.asked
  have hserve : ∃ r, fsipc (serveFlush fileid) w = .ok (r, w.askedTable.asked) := by
    rw [fsipc_eq _ htab, serveFlush, bind_of_eq hreq, get_bind]
    split
    case isTrue => exact ⟨_, rfl⟩
    case isFalse =>
      split
      case isTrue => exact ⟨_, rfl⟩
      case isFalse => exact ⟨_, rfl⟩
  obtain ⟨r, hserve⟩ := hserve
  rw [endsOr_of_eq hserve]
  exact hunmap hasked

end User

end Jos
