import Jos.User.Loading

/-!
# Program headers

`spawn` and `copy_kernel` follow the fields of an ELF header without checking that they lead to
the 512 bytes that were read.  What they read lies there, and they come to an end, exactly if this
is so for every header they reach, and none of these has a page of the file at a bad address: a
header is reached if the segments of those before it could all be mapped.
-/

namespace Jos

namespace User

open Bytes Prog View

variable {B : Stop World → Prop} {w w' : World} {i q : Nat} {fileid dst : Word} {f : File}

/-! ### Images -/

/-- The bytes of a file, with zeros behind its end. -/
def binary (data : List Byte) : Binary :=
  fun k => (data[k]?).getD 0

/-- The file is long enough, and has the magic number. -/
def IsImage (data : List Byte) : Prop :=
  HEADER ≤ data.length ∧ (binary data).eMagic = ELF_MAGIC

/-- A segment as its pages are mapped: from `va` on, with `filesz` bytes that are at `offset` in the
file. -/
structure Segment where
  va : Word
  memsz : Word
  filesz : Word
  offset : Word

namespace Segment

variable (s : Segment) (f : File)

/-- The page `j` bytes behind the first byte of the segment can be mapped: a program may map pages
at its address, and what it takes from the file is read. -/
def MapsPage (j : Nat) : Prop :=
  UserPageAddr (off s.va j) ∧ CanRead f s.filesz s.offset (BitVec.ofNat 32 j)

/-- All pages of the segment can be mapped. -/
def Fits : Prop :=
  ∀ j < s.memsz.toNat, j % PGSIZE = 0 → s.MapsPage f j

/-- The page `bad` bytes behind the first byte is read from the file, and cannot be mapped where it
belongs. -/
def Bad (bad : Nat) : Prop :=
  FirstBad f s.va s.memsz s.filesz s.offset 0 bad

end Segment

/-- A segment of a program: it is mapped from the beginning of its first page on. -/
def programSegment (b : Binary) (i : Nat) : Segment where
  va := b.pVa i - BitVec.ofNat 32 (PGOFF (b.pVa i))
  memsz := b.pMemsz i + BitVec.ofNat 32 (PGOFF (b.pVa i))
  filesz := b.pFilesz i + BitVec.ofNat 32 (PGOFF (b.pVa i))
  offset := b.pOffset i - BitVec.ofNat 32 (PGOFF (b.pVa i))

/-- A segment of a guest: it is mapped from where it begins. -/
def guestSegment (b : Binary) (i : Nat) : Segment where
  va := b.pPa i
  memsz := b.pMemsz i
  filesz := b.pFilesz i
  offset := b.pOffset i

/-- The `i`-th program header lies in the buffer. -/
def InBuffer (b : Binary) (i : Nat) : Prop :=
  b.phdr i + 32 ≤ HEADER

/-- All program headers lie in the buffer. -/
def TableInside (b : Binary) : Prop :=
  ∀ i < b.ePhnum, InBuffer b i

/-- The header `i` is reached: the segments of the headers before it can be mapped. -/
def Reached (f : File) (seg : Nat → Segment) (i : Nat) : Prop :=
  ∀ j < i, (binary f.data).pType j = ELF_PROG_LOAD → (seg j).Fits f

/-- Every header that is reached lies in the buffer. A page that is read from the file, and cannot be
mapped where it belongs, makes the program give up with `msg`; this is allowed by `B`. -/
structure HeadersOr (B : Stop World → Prop) (msg : String) (f : File) (seg : Nat → Segment) : Prop where
  inBuffer : ∀ i < (binary f.data).ePhnum, Reached f seg i → InBuffer (binary f.data) i
  pages : ∀ i < (binary f.data).ePhnum, Reached f seg i → (binary f.data).pType i = ELF_PROG_LOAD →
    ∀ bad, (seg i).Bad f bad → B (.panic msg)

/-- Every header that is reached lies in the buffer, and its segment has no page that is read from
the file and cannot be mapped where it belongs. -/
def HeadersSafe (f : File) (seg : Nat → Segment) : Prop :=
  ∀ i < (binary f.data).ePhnum, Reached f seg i → InBuffer (binary f.data) i
    ∧ ((binary f.data).pType i = ELF_PROG_LOAD → ∀ bad, ¬ (seg i).Bad f bad)

theorem HeadersSafe.or {seg : Nat → Segment} (h : HeadersSafe f seg) (msg : String) :
  HeadersOr B msg f seg
  := by
  constructor
  case inBuffer => exact fun i hi hreach => (h i hi hreach).1
  case pages => exact fun i hi hreach hload bad hbad => ((h i hi hreach).2 hload bad hbad).elim

theorem phdr_succ (b : Binary) (i : Nat) :
  b.phdr (i + 1) = b.phdr i + 32
  := rfl

theorem reached_zero (f : File) (seg : Nat → Segment) :
  Reached f seg 0
  := fun _ hj => by cases hj

theorem Reached.succ {seg : Nat → Segment} {c : Nat} (h : Reached f seg c)
    (hfits : (binary f.data).pType c = ELF_PROG_LOAD → (seg c).Fits f) :
  Reached f seg (c + 1)
  := by
  intro j hj htype
  obtain hlt | rfl := Nat.lt_succ_iff_lt_or_eq.mp hj
  · exact h j hlt htype
  · exact hfits htype

/-! ### Mapping a segment -/

section

variable {perm : Word} {s : Segment}

/-- What mapping the pages of the segment `s` does. -/
abbrev SegmentEnd (f : File) (q : Nat) (dst : Word) (s : Segment) (perm : Word) :
    World → Option Failure → World → Prop :=
  PagesEnd f q dst s.va s.memsz s.filesz s.offset perm 0

/-- The pages of a segment are mapped, or that is refused. -/
theorem segment_ends (msg : String) (h : w.Loader i q fileid f dst) (hperm : ProperPerm perm)
    (hbad : ∀ bad, s.Bad f bad → B (.panic msg)) :
  (mapPages msg dst s.va s.memsz (BitVec.ofNat 32 i) s.filesz s.offset perm (PAGES + 1) 0).EndsOr B w
    (SegmentEnd f q dst s perm w)
  := by
  apply mapPages_ends hperm s.offset msg h (Nat.zero_mod _) (by decide) (by decide)
  · exact fun j hj => by cases hj
  · exact fun bad _ => hbad bad

/-- If nothing is refused, a page that cannot be mapped where it belongs makes the program give up. -/
theorem segment_panics (msg : String) (h : w.Loader i q fileid f dst) (hperm : ProperPerm perm)
    (hwill : w.Willing) {bad : Nat} (hbad : s.Bad f bad) :
  mapPages msg dst s.va s.memsz (BitVec.ofNat 32 i) s.filesz s.offset perm (PAGES + 1) 0 w
    = .error (.panic msg)
  := mapPages_panics hperm s.offset msg h hwill (Nat.zero_mod _) (by decide) (Nat.zero_le _) hbad

/-- A segment that has been mapped fits. -/
theorem SegmentEnd.fits (h : SegmentEnd f q dst s perm w none w') :
  s.Fits f
  := fun j hj hmod => ⟨h.addr rfl j (Nat.zero_le j) hj hmod, h.readable rfl j (Nat.zero_le j) hj hmod⟩

/-- A segment that fits is mapped, if nothing is refused. -/
theorem SegmentEnd.maps {r : Option Failure} (h : SegmentEnd f q dst s perm w r w') (hwill : w.Willing)
    (hfits : s.Fits f) :
  r = none
  := h.reads hwill (fun j _ hj hmod => hfits j hj hmod)

end

/-! ### The buffer -/

/-- Structures that lie in the buffer at `buf` are read as those of `b`. -/
def Reader.Shows (peek : Reader) (w : World) (buf : Word) (b : Binary) : Prop :=
  ∀ s size k, s + size ≤ HEADER → k < size → peek (off buf s) size k w = .ok (b (s + k), w)

namespace Reader.Shows

variable {peek : Reader} {buf : Word} {b : Binary} (h : peek.Shows w buf b)
include h

theorem field32_eq {s size k : Nat} (hs : s + size ≤ HEADER) (hk : k + 4 ≤ size) :
  peek.field32 (off buf s) size k w = .ok (read32 b (s + k), w)
  := by
  rw [Reader.field32, bind_of_eq (h s size k hs (by omega)), bind_of_eq (h s size _ hs (by omega)),
    bind_of_eq (h s size _ hs (by omega)), bind_of_eq (h s size _ hs (by omega))]
  rfl

theorem elf32_eq {k : Nat} (hk : k + 4 ≤ 52) :
  peek.elf32 buf k w = .ok (read32 b k, w)
  := by
  have heq := h.field32_eq (show 0 + 52 ≤ HEADER by decide) hk
  rw [off_zero, Nat.zero_add] at heq
  exact heq

theorem ephnum_eq :
  peek.field16 buf 52 44 w = .ok ((b 45 ++ b 44 : BitVec 16), w)
  := by
  have h44 := h 0 52 44 (by decide) (by decide)
  have h45 := h 0 52 45 (by decide) (by decide)
  rw [off_zero, Nat.zero_add] at h44 h45
  rw [Reader.field16, bind_of_eq h44, bind_of_eq h45]
  rfl

theorem ph32_eq {c k : Nat} (hin : InBuffer b c) (hk : k + 4 ≤ 32) :
  peek.ph32 (off buf (b.phdr c)) k w = .ok (read32 b (b.phdr c + k), w)
  := h.field32_eq hin hk

end Reader.Shows

/-- The buffer at `buf` holds the first bytes of `b`, and is neither at `UTEMP` nor where a position
is kept. -/
structure World.Header (w : World) (q : Nat) (buf : Word) (b : Binary) : Prop where
  away : ∀ k < HEADER, PGNUM (off buf k) ≠ PGNUM UTEMP
  shown : ∀ k < HEADER, ∃ x, w.translate w.self PTE_U (off buf k) = some x ∧ w.mem x = b k
    ∧ x < w.next * PGSIZE ∧ ¬ AtPosition q x

namespace World.Header

variable {buf : Word} {b : Binary} (h : w.Header q buf b)
include h

/-- Loading leaves the buffer alone. -/
theorem loads (hdst : dst ≠ w.self) (hl : Loads q dst w w') :
  w'.Header q buf b
  := by
  constructor
  case away => exact h.away
  case shown =>
    intro k hk
    obtain ⟨x, hx, hb, hlt, hat⟩ := h.shown k hk
    use x
    refine ⟨?_, ?_, ?_, hat⟩
    · rw [translate_eq_some] at hx ⊢
      rw [hl.self, hl.entries _ _ hdst.symm (fun _ => h.away k hk)]
      exact hx
    · rw [hl.mem x hlt hat]
      exact hb
    · exact Nat.lt_of_lt_of_le hlt (Nat.mul_le_mul_right _ hl.next)

theorem memory_shows :
  memory.Shows w buf b
  := by
  intro s size k hs hk
  obtain ⟨x, hx, hb, -⟩ := h.shown (s + k) (by omega)
  apply User.load_eq
  rw [off_off, view_eq_some]
  use x

theorem within_shows :
  (within buf).Shows w buf b
  := by
  intro s size k hs hk
  have hbuf : (off buf s - buf).toNat = s := by
    rw [off, BitVec.add_comm, BitVec.add_sub_cancel, BitVec.toNat_ofNat]
    simp only [HEADER] at hs
    omega
  rw [within, hbuf, if_pos hs]
  exact h.memory_shows s size k hs hk

end World.Header

/-- A header outside of the buffer is not read. -/
theorem ph32_outside {buf : Word} {b : Binary} {c k : Nat} (hout : ¬ InBuffer b c)
    (hlt : b.phdr c < 2 ^ 32) :
  (within buf).ph32 (off buf (b.phdr c)) k w = .error (.panic "read outside the buffer")
  := by
  have hbuf : (off buf (b.phdr c) - buf).toNat = b.phdr c := by
    rw [off, BitVec.add_comm, BitVec.add_sub_cancel, BitVec.toNat_ofNat, Nat.mod_eq_of_lt hlt]
  have hread : within buf (off buf (b.phdr c)) 32 k w = .error (.panic "read outside the buffer") := by
    have hout' : ¬ b.phdr c + 32 ≤ HEADER := hout
    rw [within, hbuf, if_neg hout']
    rfl
  rw [Reader.ph32, Reader.field32, bind_of_error hread]

/-! ### Reading the headers -/

/-- The program may open the file with the path `name` at `path`, and read its headers to the buffer
at `buf`. -/
structure World.Ready (w : World) (buf path : Word) (name : List Byte) : Prop where
  wf : w.Wf
  granted : w.Granted
  named : (w.view w.self).Str path name
  below : buf.toNat + HEADER ≤ UTOP
  away : ∀ k < HEADER, PGNUM (off buf k) ≠ PGNUM UTEMP
  writable : ∀ k < HEADER, (w.translate w.self (PTE_U ||| PTE_W) (off buf k)).isSome

namespace World.Ready

variable {buf path : Word} {name : List Byte} (h : w.Ready buf path name)
include h

/-- The addresses of the buffer do not go round. -/
theorem off_toNat {k : Nat} (hk : k ≤ HEADER) :
  (off buf k).toNat = buf.toNat + k
  := by
  have hbelow := h.below
  have htop : UTOP = 4005560320 := rfl
  rw [View.off_toNat, Nat.mod_eq_of_lt]
  omega

/-- The bytes of the buffer, which are not those of a new page. -/
theorem buffer :
  ∃ pa, w.Buffer buf HEADER pa ∧ ∀ k < HEADER, pa k < w.next * PGSIZE
  := by
  have hpage : ∀ k < HEADER, ∃ m, w.entry w.self (off buf k) = some m
      ∧ w.translate w.self (PTE_U ||| PTE_W) (off buf k)
        = some (m.page * PGSIZE + PGOFF (off buf k)) := by
    intro k hk
    obtain ⟨x, hx⟩ := Option.isSome_iff_exists.mp (h.writable k hk)
    obtain ⟨m, hm, -, hpa⟩ := translate_eq_some.mp hx
    use m, hm
    rw [hx, hpa]
  use fun k => (w.translate w.self (PTE_U ||| PTE_W) (off buf k)).getD 0
  constructor
  · constructor
    case writable =>
      intro k hk
      obtain ⟨m, -, hx⟩ := hpage k hk
      rw [hx]
      rfl
    case inj =>
      intro j hj k hk heq
      obtain ⟨m, -, hx⟩ := hpage j hj
      obtain ⟨m', -, hx'⟩ := hpage k hk
      rw [hx, hx', Option.getD_some, Option.getD_some, PGOFF_eq, PGOFF_eq,
        h.off_toNat (Nat.le_of_lt hj), h.off_toNat (Nat.le_of_lt hk)] at heq
      simp only [HEADER, PGSIZE] at hj hk heq
      omega
  · intro k hk
    obtain ⟨m, hm, hx⟩ := hpage k hk
    have hlt := PGOFF_lt (off buf k)
    have hnext := Nat.mul_le_mul_right PGSIZE (Nat.succ_le_of_lt (h.wf.fresh _ _ _ hm))
    rw [Nat.succ_mul] at hnext
    rw [hx, Option.getD_some]
    omega

end World.Ready

/-- What reading the headers of `f` does that has just been opened at the descriptor `i`. -/
structure HeaderRead (f : File) (i : Nat) (buf : Word) (w : World) (t : Word) (w' : World) : Prop where
  self : w'.self = w.self
  procs : w'.procs = (w.openAt i f).procs
  next : w.next < w'.next
  fate : ∃ k, w'.fate = fun n => w.fate (n + k)
  wf : w'.Wf
  granted : w'.Granted
  willing : w.Willing → w'.Willing
  opened : w'.Opened i w.next (w.fate 0) f
  rest : ∀ x, x < w.next * PGSIZE → (∀ k < HEADER, w.translate w.self PTE_U (off buf k) ≠ some x) →
    w'.mem x = w.mem x
  header : t = BitVec.ofNat 32 HEADER → HEADER ≤ f.data.length
    ∧ w'.Header w.next buf (binary f.data)
  reads : w.Willing → HEADER ≤ f.data.length → t = BitVec.ofNat 32 HEADER

theorem readHeader_ends {buf path : Word} {name : List Byte} (h : w.Ready buf path name) (hi : i < MAXFD)
    (hnone : w.entry w.self (fdAddr i) = none) (f : File) :
  (readn (BitVec.ofNat 32 i) buf (BitVec.ofNat 32 HEADER)).EndsOr B (w.openAt i f) (HeaderRead f i buf w)
  := by
  obtain ⟨pa, hbuf, hold⟩ := h.buffer
  have hop := openAt_opened h.wf hi f
  have hpos : (w.openAt i f).position w.next = 0 := openAt_position f
  have hwf := openAt_wf (i := i) h.wf f
  -- the buffer is mapped, so that the descriptor is not
  have hne : ∀ k < HEADER, PGNUM (off buf k) ≠ PGNUM (fdAddr i) := by
    intro k hk hnum
    obtain ⟨m, hm, -⟩ := translate_eq_some.mp (hbuf.writable k hk)
    rw [World.entry, hnum] at hm
    rw [World.entry, hm] at hnone
    cases hnone
  have htrans : ∀ k < HEADER, (w.openAt i f).translate w.self (PTE_U ||| PTE_W) (off buf k)
      = some (pa k) := by
    intro k hk
    obtain ⟨m, hm, hperm, hpa⟩ := translate_eq_some.mp (hbuf.writable k hk)
    apply translate_eq_some.mpr
    use m
    refine ⟨?_, hperm, hpa⟩
    rw [← hm]
    exact entry_setEntry_of_ne (fun _ => hne k hk) _
  have hbuf1 : (w.openAt i f).Buffer buf HEADER pa := ⟨htrans, hbuf.inj⟩
  have hapart : Apart pa HEADER w.next := fun k hk => Or.inl (hold k hk)
  have hgranted : (w.openAt i f).Granted := fun n => h.granted _
  apply (readn_ends hop hbuf1 hapart hgranted (by decide)).mono
  intro t w1 h1
  have hserved := h1.served
  constructor
  case self => exact hserved.self
  case procs => exact hserved.procs
  case next =>
    rw [hserved.next]
    exact Nat.lt_succ_self _
  case fate =>
    obtain ⟨k, hk⟩ := hserved.fate
    use k + 1
    rw [hk]
    rfl
  case wf => exact hserved.wf hwf
  case granted => exact hserved.granted hgranted
  case willing => exact fun hwill => hserved.willing (fun n => hwill _)
  case opened => exact hop.served hserved (fun x hx hx' => hapart.atPosition (Nat.le_refl _) hx hx')
  case rest =>
    intro x hx hbuffer
    rw [hserved.mem x]
    · exact fdPage_of_disjoint _ _ _ (Or.inl hx)
    · rintro (hat | ⟨k, -, hk, rfl⟩)
      · rw [AtPosition] at hat
        omega
      · exact hbuffer k hk (translate_of_writable (hbuf.writable k hk))
  case header =>
    rintro rfl
    obtain ⟨got, hgot, -, hle, hbytes⟩ := h1.bytes (by decide)
    have hgot' : HEADER = got := by
      have hNat := congrArg BitVec.toNat hgot
      rw [BitVec.toNat_ofNat, BitVec.toNat_ofNat] at hNat
      simp only [HEADER] at hNat hle ⊢
      omega
    subst hgot'
    have hdata : ∀ k < HEADER, f.data[k]? = some (w1.mem (pa k)) := by
      intro k hk
      have hbyte := hbytes (by rw [hpos]; rfl) k (Nat.zero_le k) hk
      rw [hpos] at hbyte
      rw [← hbyte, Nat.sub_zero]
      congr 1
      exact (Nat.zero_add k).symm
    constructor
    · by_contra hshort
      have hnone := hdata (HEADER - 1) (by decide)
      rw [List.getElem?_eq_none (by omega)] at hnone
      cases hnone
    · constructor
      case away => exact h.away
      case shown =>
        intro k hk
        use pa k
        refine ⟨?_, ?_, ?_, ?_⟩
        · rw [hserved.translate, hserved.self]
          exact translate_of_writable (htrans k hk)
        · rw [binary, hdata k hk]
          rfl
        · rw [hserved.next]
          exact Nat.lt_of_lt_of_le (hold k hk) (Nat.mul_le_mul_right _ (Nat.le_succ _))
        · have hlt := hold k hk
          rw [AtPosition]
          omega
  case reads =>
    intro hwill hlen
    have hcount := h1.count (fun n => hwill _) (by rw [hpos]; rfl)
    rw [hcount, hpos]
    congr 1
    change 0 + min (HEADER - 0) (f.data.length - 0) = HEADER
    omega

/-- The file that was read may be loaded. -/
theorem HeaderRead.loader {buf t : Word} (h : HeaderRead f i buf w t w') (hne : dst ≠ w.self)
    (hzero : dst ≠ 0) (hthere : (w.procs dst).isSome) :
  w'.Loader i w.next (w.fate 0) f dst
  := by
  constructor
  case wf => exact h.wf
  case opened => exact h.opened
  case granted => exact h.granted
  case ne_self =>
    rw [h.self]
    exact hne
  case ne_zero => exact hzero
  case there =>
    rw [h.procs]
    exact (isSome_setEntry _ _).trans hthere

/-- The file `f` is open at the descriptor `i`, its headers are in the buffer, and it is loaded into
the environment `dst`. -/
structure World.Loading (w : World) (i q : Nat) (fileid : Word) (f : File) (buf dst : Word) : Prop where
  loader : w.Loader i q fileid f dst
  header : w.Header q buf (binary f.data)

theorem World.Loading.loads {buf : Word} (h : w.Loading i q fileid f buf dst) (hl : Loads q dst w w') :
  w'.Loading i q fileid f buf dst
  := ⟨h.loader.loads hl, h.header.loads h.loader.ne_self hl⟩

/-! ### A program that reads headers -/

/-- A program with one page, which holds the path `"a"` and has room for the headers, and another
environment. There is one file only, and every request is answered with `a`. -/
def oneFile (f : File) (a : Word) : World :=
  { twoProcs (fun n => if n = 1 then some ⟨0, PTE_PUW⟩ else none) (fun x => if x = 0 then 0x61 else 0) 1
    with disk := fun _ => f, fate := fun _ => a }

theorem oneFile_wf (f : File) (a : Word) :
  (oneFile f a).Wf
  := by
  have hwf : (twoProcs (fun n => if n = 1 then some ⟨0, PTE_PUW⟩ else none)
      (fun x => if x = 0 then 0x61 else 0) 1).Wf := by
    apply twoProcs_wf
    intro n m h
    split at h
    case isTrue =>
      cases h
      exact Nat.zero_lt_one
    case isFalse => cases h
  exact ⟨hwf.self_ne, hwf.running, hwf.fresh⟩

theorem oneFile_willing (f : File) {a : Word} (h : isError a = false) :
  (oneFile f a).Willing
  := fun _ => h

theorem oneFile_canOpen (f : File) {a : Word} (h : isError a = false) :
  (oneFile f a).CanOpen [0x61]
  := ⟨by decide, ⟨0, by decide, rfl⟩, h, rfl⟩

/-- The addresses of its page. -/
theorem oneFile_translate (f : File) (a : Word) {perm : Word} (hperm : PTE_PUW &&& perm = perm) {o : Nat}
    (ho : o < PGSIZE) :
  (oneFile f a).translate 1 perm (off 0x1000 o) = some o
  := by
  obtain ⟨hnum, hoff⟩ := off_page (by decide : (0x1000 : Word).toNat % PGSIZE = 0) ho
  rw [translate_eq_some]
  refine ⟨⟨0, PTE_PUW⟩, ?_, hperm, ?_⟩
  · rw [World.entry, hnum]
    rfl
  · rw [hoff, Nat.zero_mul, Nat.zero_add]

theorem oneFile_ready (f : File) (a : Word) :
  (oneFile f a).Ready 0x1800 0x1000 [0x61]
  := by
  have hbuf : ∀ k, off 0x1800 k = off 0x1000 (0x800 + k) := by
    intro k
    have hstart : off 0x1000 0x800 = 0x1800 := by decide
    rw [← hstart, off_off]
  have hread : ∀ {o}, o < PGSIZE → ((oneFile f a).view 1) (off 0x1000 o) = some ((oneFile f a).mem o) := by
    intro o ho
    rw [World.view, oneFile_translate f a (by decide) ho]
    rfl
  constructor
  case wf => exact oneFile_wf f a
  case granted => exact fun _ => (by decide : isError 0 = false)
  case named =>
    constructor
    case bytes =>
      intro i hi
      obtain rfl : i = 0 := Nat.lt_one_iff.mp hi
      exact hread (by decide)
    case zero => exact hread (by decide)
    case notMem => decide
  case below => decide
  case away =>
    intro k hk
    have htemp : PGNUM UTEMP = 1024 := by decide
    simp only [HEADER] at hk
    rw [hbuf, (off_page (by decide) (by simp only [PGSIZE]; omega)).1, htemp]
    decide
  case writable =>
    intro k hk
    simp only [HEADER] at hk
    rw [hbuf]
    change ((oneFile f a).translate 1 _ _).isSome
    rw [oneFile_translate f a (by decide) (by simp only [PGSIZE]; omega)]
    rfl

/-- The file that consists of the first bytes of `m`, as many as are read to the buffer. -/
def headerOnly (m : Memory) : File :=
  .ofData ((List.range HEADER).map m) (by
    rw [List.length_map, List.length_range]
    simp only [HEADER]
    omega)

theorem headerOnly_length (m : Memory) :
  (headerOnly m).data.length = HEADER
  := by rw [headerOnly, File.ofData, List.length_map, List.length_range]

theorem binary_headerOnly (m : Memory) {k : Nat} (hk : k < HEADER) :
  binary (headerOnly m).data k = m k
  := by
  rw [binary, headerOnly, File.ofData, List.getElem?_map, List.getElem?_range hk]
  rfl

theorem read32_headerOnly (m : Memory) {k : Nat} (hk : k + 4 ≤ HEADER) :
  read32 (binary (headerOnly m).data) k = read32 m k
  := by
  apply read32_congr
  intro x hx hx'
  exact binary_headerOnly m (by omega)

end User

end Jos
