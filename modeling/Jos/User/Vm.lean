import Jos.User.Segments

/-!
# Loading a guest

`copy_kernel` of `user/vm.c` maps the segments of a kernel in the memory of a guest.  A page of a
segment is mapped where the segment says, and nowhere else, so that every segment has to
begin at a page boundary: then no two of them share a page, and the guest finds in its memory
what the file says.
-/

namespace Jos

namespace User

open Bytes Prog View

variable {B : Stop World → Prop} {w w' w'' : World} {i q c : Nat} {fileid guest buf path : Word}
  {f : File} {name : List Byte}

/-! ### Closing the file -/

/-- From `w` to `w'` the descriptor `i` was closed, and nothing else changed but the answers. -/
def Closed (i : Nat) (w w' : World) : Prop :=
  ∃ w1, Served (fun _ => False) w w1 ∧ w' = w1.setEntry w.self (fdAddr i) none

/-- What other environments map is not affected. -/
theorem Closed.entry {e va : Word} (h : Closed i w w') (he : e ≠ w.self) :
  w'.entry e va = w.entry e va
  := by
  obtain ⟨w1, h1, rfl⟩ := h
  rw [entry_setEntry_of_ne (fun heq => (he heq).elim), h1.sameProcs.entry]

/-- Nor is memory. -/
theorem Closed.mem (h : Closed i w w') :
  w'.mem = w.mem
  := by
  obtain ⟨w1, h1, rfl⟩ := h
  funext x
  exact h1.mem x id

/-! ### The loop over the program headers -/

/-- The permissions of the pages of a guest. -/
def guestPerm : Nat → Word := fun _ => PTE_PUW

/-- The addresses of the headers are in the order of the headers, as far as these lie in the
buffer. -/
theorem ph_lt_iff {b : Binary} (hbelow : buf.toNat + HEADER ≤ UTOP) (hc : c ≤ b.ePhnum)
    (hin : c < b.ePhnum → InBuffer b c) :
  (off buf (b.phdr c)).toNat < (off buf (b.phdr b.ePhnum)).toNat ↔ c < b.ePhnum
  := by
  have htop : UTOP = 4005560320 := rfl
  have hnum : b.ePhnum < 2 ^ 16 := BitVec.isLt _
  constructor
  · intro hlt
    by_contra hge
    obtain rfl : c = b.ePhnum := by omega
    exact Nat.lt_irrefl _ hlt
  · intro hlt
    have hbuf := hin hlt
    rw [InBuffer, Binary.phdr] at hbuf
    simp only [HEADER] at hbuf hbelow
    rw [View.off_toNat, View.off_toNat, Binary.phdr, Binary.phdr, Nat.mod_eq_of_lt (by omega),
      Nat.mod_eq_of_lt (by omega)]
    omega

/-- What the loop over the headers from `c` on does: it maps the segments, or one of them is refused;
the file is closed in any case. -/
structure KernelEnd (f : File) (i q : Nat) (guest : Word) (c : Nat) (w : World) (r : Word)
    (w' : World) : Prop where
  mapped : isError r = false → r = 0 ∧ ∃ w1,
    SegmentsEnd f q guest (guestSegment (binary f.data)) guestPerm c (binary f.data).ePhnum w w1
      ∧ Closed i w1 w'
  maps : w.Willing → (∀ i, c ≤ i → i < (binary f.data).ePhnum →
    (binary f.data).pType i = ELF_PROG_LOAD → (guestSegment (binary f.data) i).Fits f) → r = 0

/-- The file is closed. -/
theorem World.Loader.close_ends (h : w.Loader i q fileid f guest) :
  (close (BitVec.ofNat 32 i)).EndsOr B w (fun _ => Closed i w)
  := User.close_ends h.opened h.wf.running (h.granted 0)

/-- The segments of a kernel are mapped in the guest, unless one is refused, or has a page that is
read and cannot be mapped. -/
theorem mapKernel_ends {peek : Reader} {n : Nat} (h : w.Loader i q fileid f guest)
    (hbelow : buf.toNat + HEADER ≤ UTOP)
    (hshow : ∀ w', Loads q guest w w' → peek.Shows w' buf (binary f.data))
    (hreach : Reached f (guestSegment (binary f.data)) c) (hc : c ≤ (binary f.data).ePhnum)
    (hn : (binary f.data).ePhnum < n + c)
    (hsafe : HeadersOr B "in vm.c in map guest" f (guestSegment (binary f.data))) :
  (mapKernel peek guest (BitVec.ofNat 32 i) (off buf ((binary f.data).phdr (binary f.data).ePhnum)) n
    (off buf ((binary f.data).phdr c)) 0).EndsOr B w (KernelEnd f i q guest c w)
  := by
  induction n generalizing w c with
  | zero => omega
  | succ n ih =>
      rw [mapKernel, endsOr_ite, ph_lt_iff hbelow hc (fun hlt => hsafe.inBuffer c hlt hreach)]
      constructor
      · intro hlt
        have hread := hshow w (Loads.composes.refl w)
        have hinc := hsafe.inBuffer c hlt hreach
        have hfield : ∀ {k}, k + 4 ≤ 32 → peek.ph32 (off buf ((binary f.data).phdr c)) k w
            = .ok (read32 (binary f.data) ((binary f.data).phdr c + k), w) :=
          fun hk => hread.ph32_eq hinc hk
        have htype : peek.ph32 (off buf ((binary f.data).phdr c)) 0 w
            = .ok ((binary f.data).pType c, w) := hfield (by decide)
        rw [endsOr_bind, endsOr_of_eq htype, endsOr_ite, off_phdr_succ]
        constructor
        · intro hload
          rw [endsOr_bind, endsOr_of_eq (hfield (by decide)), endsOr_bind,
            endsOr_of_eq (hfield (by decide)), endsOr_bind, endsOr_of_eq (hfield (by decide)),
            endsOr_bind, endsOr_of_eq (hfield (by decide)), endsOr_bind, mapGuest, endsOr_bind]
          apply (segment_ends (s := guestSegment (binary f.data) c) _ h proper_puw
            (hsafe.pages c hlt hreach hload)).mono
          intro r w1 h1
          have hl1 := h.loads h1.loads
          cases r with
          | some x =>
              have hx := h1.refused x rfl
              simp only
              rw [endsOr_pure, if_pos hx, endsOr_bind]
              apply (hl1.close_ends).mono
              intro _ w2 h2
              rw [endsOr_pure]
              constructor
              case mapped => exact fun hr => by cases hr
              case maps =>
                intro hwill hfits
                cases h1.maps hwill (hfits c (Nat.le_refl c) hlt hload)
          | none =>
              simp only
              rw [endsOr_pure, if_neg (by decide)]
              apply (ih hl1 (fun w' h' => hshow w' (Loads.composes.trans h1.loads h'))
                (hreach.succ (fun _ => h1.fits)) hlt (by omega)).mono
              intro r w2 h2
              constructor
              case mapped =>
                intro hr
                obtain ⟨hzero, w3, h3, hclosed⟩ := h2.mapped hr
                exact ⟨hzero, w3, .cons h.page_lt hlt hload h1 h3, hclosed⟩
              case maps =>
                intro hwill hfits
                exact h2.maps (h1.loads.willing hwill) (fun i hi => hfits i (by omega))
        · intro hskip
          apply (ih h hshow (hreach.succ (fun hload => (hskip hload).elim)) hlt (by omega)).mono
          intro r w2 h2
          constructor
          case mapped =>
            intro hr
            obtain ⟨hzero, w3, h3, hclosed⟩ := h2.mapped hr
            exact ⟨hzero, w3, h3.skip hskip, hclosed⟩
          case maps => exact fun hwill hfits => h2.maps hwill (fun i hi => hfits i (by omega))
      · intro hend
        obtain rfl : c = (binary f.data).ePhnum := by omega
        rw [endsOr_bind]
        apply h.close_ends.mono
        intro _ w2 h2
        rw [endsOr_pure]
        constructor
        case mapped => exact fun _ => ⟨rfl, w, .nil, h2⟩
        case maps => exact fun _ _ => rfl

/-! ### Loading a kernel -/

/-- The program may change the memory of the guest, which is not the program itself. -/
structure World.HasGuest (w : World) (guest : Word) : Prop where
  ne_self : guest ≠ w.self
  ne_zero : guest ≠ 0
  there : (w.procs guest).isSome

/-- Nothing is refused before `copy_kernel` looks at the segments. -/
structure World.Copies (w : World) (name : List Byte) (f : File) : Prop where
  willing : w.Willing
  canOpen : w.CanOpen name
  image : IsImage f.data

/-- `copy_kernel` refuses the file, or goes through its headers. -/
theorem copyKernel_reaches {peek : Reader} {Q : Word → World → Prop} (h : w.Ready buf path name)
    (hguest : w.HasGuest guest) (hf : w.disk name = f)
    (hpeek : ∀ {w'}, w'.Header w.next buf (binary f.data) → peek.Shows w' buf (binary f.data))
    (hrefuse : ∀ r w', isError r = true → ¬ w.Copies name f → Q r w')
    (hkernel : IsImage f.data → ∀ i w', w'.Loading i w.next (w.fate 0) f buf guest → w.next < w'.next →
      w'.self = w.self → (w.Willing → w'.Willing) →
      (mapKernel peek guest (BitVec.ofNat 32 i)
        (off buf ((binary f.data).phdr (binary f.data).ePhnum)) ((binary f.data).ePhnum + 1)
        (off buf ((binary f.data).phdr 0)) 0).EndsOr B w' Q) :
  (copyKernel peek buf guest path).EndsOr B w Q
  := by
  rw [copyKernel, endsOr_bind]
  obtain ⟨r, w1, heq, herr, hcannot, -⟩ | ⟨i, hi, hnone, -, -, -, heq⟩ :=
    openFile_cases h.named h.granted
  · rw [endsOr_of_eq heq]
    simp only
    rw [endsOr_pure]
    exact hrefuse _ _ (by decide) (fun hgo => hcannot hgo.canOpen)
  · rw [endsOr_of_eq heq, hf]
    simp only
    rw [endsOr_bind]
    apply (readHeader_ends h hi hnone f).mono
    intro t w1 h1
    have hloader := h1.loader hguest.ne_self hguest.ne_zero hguest.there
    rw [endsOr_ite]
    constructor
    · intro hshort
      rw [endsOr_bind]
      apply hloader.close_ends.mono
      intro _ w2 _
      rw [endsOr_pure]
      exact hrefuse _ _ (by decide) (fun hgo => hshort (h1.reads hgo.willing hgo.image.1))
    · intro hlong
      obtain ⟨hlen, hheader⟩ := h1.header (not_not.mp hlong)
      have hread := hpeek hheader
      have hmagic : peek.elf32 buf 0 w1 = .ok ((binary f.data).eMagic, w1) :=
        hread.elf32_eq (by decide)
      rw [endsOr_bind, endsOr_of_eq hmagic, endsOr_ite]
      constructor
      · intro hno
        rw [endsOr_bind]
        apply hloader.close_ends.mono
        intro _ w2 _
        rw [endsOr_pure]
        exact hrefuse _ _ (by decide) (fun hgo => hno hgo.image.2)
      · intro hyes
        have hphoff : peek.elf32 buf 28 w1 = .ok ((binary f.data).ePhoff, w1) :=
          hread.elf32_eq (by decide)
        have heph : off (off buf ((binary f.data).phdr 0)) (32 * (binary f.data).ePhnum)
            = off buf ((binary f.data).phdr (binary f.data).ePhnum) := by
          rw [off_off]
          rfl
        rw [endsOr_bind, endsOr_of_eq hphoff, endsOr_bind, endsOr_of_eq hread.ephnum_eq, phoff_eq]
        change (mapKernel _ _ _ (off (off buf _) (32 * (binary f.data).ePhnum)) _ _ _).EndsOr _ _ _
        rw [heph]
        exact hkernel ⟨hlen, not_not.mp hyes⟩ i w1 ⟨hloader, hheader⟩ h1.next h1.self h1.willing

/-- What loading the file `f` into a guest does: it is refused, or maps the segments. -/
structure CopyEnd (f : File) (name : List Byte) (guest : Word) (w : World) (r : Word) (w' : World) :
    Prop where
  loaded : isError r = false → r = 0 ∧ IsImage f.data ∧ ∃ i w1 w2, w.next < w1.next
    ∧ (w.Willing → w1.Willing) ∧ w1.self = w.self
    ∧ SegmentsEnd f w.next guest (guestSegment (binary f.data)) guestPerm 0
      (binary f.data).ePhnum w1 w2
    ∧ Closed i w2 w'
  loads : w.Copies name f →
    (∀ i < (binary f.data).ePhnum, (binary f.data).pType i = ELF_PROG_LOAD →
      (guestSegment (binary f.data) i).Fits f) → r = 0

/-- A kernel is loaded, unless that is refused, or it has a page that is read and cannot be mapped. -/
theorem copyKernel_ends {peek : Reader} (h : w.Ready buf path name) (hguest : w.HasGuest guest)
    (hf : w.disk name = f)
    (hpeek : ∀ {w'}, w'.Header w.next buf (binary f.data) → peek.Shows w' buf (binary f.data))
    (hsafe : IsImage f.data →
      HeadersOr B "in vm.c in map guest" f (guestSegment (binary f.data))) :
  (copyKernel peek buf guest path).EndsOr B w (CopyEnd f name guest w)
  := by
  apply copyKernel_reaches h hguest hf hpeek
  · intro r w' herr hno
    constructor
    case loaded =>
      intro hok
      rw [herr] at hok
      cases hok
    case loads => exact fun hgo => (hno hgo).elim
  · intro himage i w1 hloading hnext hself hwill
    apply (mapKernel_ends hloading.loader h.below (fun w' hl => hpeek (hloading.loads hl).header)
      (reached_zero _ _) (Nat.zero_le _) (Nat.lt_succ_self _) (hsafe himage)).mono
    intro r w2 h2
    constructor
    case loaded =>
      intro hr
      obtain ⟨hzero, w3, h3, hclosed⟩ := h2.mapped hr
      exact ⟨hzero, himage, i, w1, w3, hnext, hwill, hself, h3, hclosed⟩
    case loads => exact fun hgo hfits => h2.maps (hwill hgo.willing) (fun i _ => hfits i)

/-! ### Kernels that are loaded right -/

/-- The size of the memory of a guest. -/
def GUEST_MEM_SZ : Nat := 16 * 1024 * 1024

namespace Binary

variable (b : Binary)

/-- The `i`-th program header is there, and is that of a segment to load. -/
def IsLoaded (i : Nat) : Prop :=
  i < b.ePhnum ∧ b.pType i = ELF_PROG_LOAD

end Binary

/-- A kernel with its program headers in the buffer, and with segments that share no byte, lie in the
memory of a guest, and are contained in the file. -/
structure IsKernel (data : List Byte) : Prop where
  magic : (binary data).eMagic = ELF_MAGIC
  table : TableInside (binary data)
  sizes : ∀ i, Binary.IsLoaded (binary data) i →
    ((binary data).pFilesz i).toNat ≤ ((binary data).pMemsz i).toNat
  memory : ∀ i, Binary.IsLoaded (binary data) i →
    ((binary data).pPa i).toNat + ((binary data).pMemsz i).toNat ≤ GUEST_MEM_SZ
  contained : ∀ i, Binary.IsLoaded (binary data) i →
    ∀ k < ((binary data).pFilesz i).toNat, ((binary data).pOffset i).toNat + k < data.length
  apart : ∀ i i', i < i' → Binary.IsLoaded (binary data) i → Binary.IsLoaded (binary data) i' →
    ∀ k < ((binary data).pMemsz i).toNat, ∀ k' < ((binary data).pMemsz i').toNat,
      ((binary data).pPa i).toNat + k ≠ ((binary data).pPa i').toNat + k'

/-- The file is long enough, and all segments that are not empty begin at a page boundary. -/
def Aligned (data : List Byte) : Prop :=
  HEADER ≤ data.length ∧ ∀ i, Binary.IsLoaded (binary data) i → (binary data).pMemsz i ≠ 0 →
    ((binary data).pPa i).toNat % PGSIZE = 0

/-- The byte `k` of the `i`-th segment, as the file has it: behind its bytes in the file it has
zeros. -/
def imageByte (data : List Byte) (i k : Nat) : Byte :=
  if k < ((binary data).pFilesz i).toNat then binary data (((binary data).pOffset i).toNat + k) else 0

/-- The guest finds the segments in its memory. -/
def HoldsKernel (w : World) (guest : Word) (data : List Byte) : Prop :=
  ∀ i, Binary.IsLoaded (binary data) i → ∀ k < ((binary data).pMemsz i).toNat,
    (w.view guest) (off ((binary data).pPa i) k) = some (imageByte data i k)

section Kernel

variable {data : List Byte} (hkernel : IsKernel data)
include hkernel

/-- A page of a segment has a good address. -/
theorem IsKernel.userPageAddr (hi : Binary.IsLoaded (binary data) i)
    (haligned : ((binary data).pPa i).toNat % PGSIZE = 0) {j : Nat}
    (hj : j < ((binary data).pMemsz i).toNat) (hmod : j % PGSIZE = 0) :
  (off ((binary data).pPa i) j).toNat = ((binary data).pPa i).toNat + j
    ∧ UserPageAddr (off ((binary data).pPa i) j)
  := by
  have hmem := hkernel.memory i hi
  have htop : UTOP = 4005560320 := rfl
  have hNat : (off ((binary data).pPa i) j).toNat = ((binary data).pPa i).toNat + j := by
    rw [View.off_toNat, Nat.mod_eq_of_lt]
    simp only [GUEST_MEM_SZ] at hmem
    omega
  use hNat
  rw [UserPageAddr, hNat, htop]
  simp only [GUEST_MEM_SZ, PGSIZE] at hmem haligned hmod ⊢
  omega

/-- The file holds what a page of a segment takes from it. -/
theorem IsKernel.inFile (hf : f.data = data) (hi : Binary.IsLoaded (binary data) i) {j : Nat}
    (hj : j < ((binary data).pMemsz i).toNat) :
  InFile f ((binary data).pFilesz i) ((binary data).pOffset i) (BitVec.ofNat 32 j)
    ∧ CanRead f ((binary data).pFilesz i) ((binary data).pOffset i) (BitVec.ofNat 32 j)
  := by
  have hjNat : (BitVec.ofNat 32 j).toNat = j := by
    rw [BitVec.toNat_ofNat, Nat.mod_eq_of_lt]
    omega
  have hin : InFile f ((binary data).pFilesz i) ((binary data).pOffset i) (BitVec.ofNat 32 j) := by
    intro hlt
    rw [hjNat] at hlt
    have hsmall := f.small
    have hlast := hkernel.contained i hi (((binary data).pFilesz i).toNat - 1) (by omega)
    have hadd : ((binary data).pOffset i + BitVec.ofNat 32 j).toNat
        = ((binary data).pOffset i).toNat + j := by
      rw [BitVec.toNat_add, hjNat]
      rw [hf] at hsmall
      omega
    rw [isError_iff, hadd, hjNat, hf]
    rw [hf] at hsmall
    omega
  exact ⟨hin, fun hlt => File.reads_of_nonneg (hin hlt).1 _⟩

/-- Segments that share no byte, and begin at page boundaries, share no page. -/
theorem IsKernel.pagesApart (haligned : Aligned data) {i' : Nat} (hlt : i < i')
    (hi : Binary.IsLoaded (binary data) i) (hi' : Binary.IsLoaded (binary data) i') :
  (guestSegment (binary data) i).PagesApart (guestSegment (binary data) i')
  := by
  intro j hj j' hj' hmod hmod' hnum
  have hj1 : j < ((binary data).pMemsz i).toNat := hj
  have hj1' : j' < ((binary data).pMemsz i').toNat := hj'
  have hpa := haligned.2 i hi (fun hzero => by rw [hzero] at hj1; exact Nat.not_lt_zero _ hj1)
  have hpa' := haligned.2 i' hi' (fun hzero => by rw [hzero] at hj1'; exact Nat.not_lt_zero _ hj1')
  have hne := hkernel.apart i i' hlt hi hi' j hj1 j' hj1'
  have hadd := (hkernel.userPageAddr hi hpa hj1 hmod).1
  have hadd' := (hkernel.userPageAddr hi' hpa' hj1' hmod').1
  change PGNUM (off ((binary data).pPa i) j) = PGNUM (off ((binary data).pPa i') j') at hnum
  rw [PGNUM_eq, PGNUM_eq, hadd, hadd'] at hnum
  simp only [PGSIZE] at hpa hpa' hmod hmod'
  omega

/-- A segment that begins at a page boundary can be mapped. -/
theorem IsKernel.fits (hf : f.data = data) (haligned : Aligned data)
    (hi : Binary.IsLoaded (binary data) i) :
  (guestSegment (binary data) i).Fits f
  := by
  intro j hj hmod
  have hj' : j < ((binary data).pMemsz i).toNat := hj
  have hpa := haligned.2 i hi (fun hzero => by rw [hzero] at hj'; exact Nat.not_lt_zero _ hj')
  exact ⟨(hkernel.userPageAddr hi hpa hj' hmod).2, (hkernel.inFile hf hi hj').2⟩

/-- The bytes of a segment that has been mapped. -/
theorem IsKernel.view (hf : f.data = data) (haligned : Aligned data)
    (hi : Binary.IsLoaded (binary data) i) (hwill : w.Willing) {k : Nat}
    (hk : k < ((binary data).pMemsz i).toNat)
    (hplaced : (guestSegment (binary data) i).Placed f guest PTE_PUW w w' (k - k % PGSIZE)) :
  (w'.view guest) (off ((binary data).pPa i) k) = some (imageByte data i k)
  := by
  obtain ⟨p, -, -, hentry, hbytes⟩ := hplaced
  obtain ⟨j, hj⟩ : ∃ j, j = k - k % PGSIZE := ⟨_, rfl⟩
  have hmod : j % PGSIZE = 0 := by
    simp only [PGSIZE] at hj ⊢
    omega
  have hjk : j + k % PGSIZE = k := by
    have hle := Nat.mod_le k PGSIZE
    omega
  have hjlt : j < ((binary data).pMemsz i).toNat := by omega
  have hpa := haligned.2 i hi (fun hzero => by rw [hzero] at hk; exact Nat.not_lt_zero _ hk)
  obtain ⟨hin, -⟩ := hkernel.inFile hf hi hjlt
  obtain ⟨hadd, haddr⟩ := hkernel.userPageAddr hi hpa hjlt hmod
  have ho : k % PGSIZE < PGSIZE := Nat.mod_lt _ (by decide)
  have hbyte := hbytes hwill (by rw [← hj]; exact hin) (k % PGSIZE) ho
  rw [← hj] at hentry hbyte
  obtain ⟨hnum, hoff⟩ := off_page haddr.2 ho
  rw [off_off, hjk] at hnum hoff
  have hjNat : (BitVec.ofNat 32 j).toNat = j := by
    rw [BitVec.toNat_ofNat, Nat.mod_eq_of_lt]
    omega
  rw [view_eq_some]
  refine ⟨p * PGSIZE + k % PGSIZE, ?_, ?_⟩
  · rw [translate_eq_some]
    have hperm : PTE_PUW &&& PTE_U = PTE_U := by decide
    refine ⟨⟨p, PTE_PUW⟩, ?_, hperm, ?_⟩
    · rw [World.entry, hnum]
      exact hentry
    · rw [hoff]
  · rw [hbyte, segmentByte, imageByte, hjNat, hjk]
    change (if k < ((binary data).pFilesz i).toNat then _ else _) = _
    split
    case isTrue hlt =>
      have hfile := (hin (by omega)).2
      rw [hf, binary]
      congr 2
      have hlast := hkernel.contained i hi k hlt
      have hsmall := f.small
      rw [hf] at hsmall
      change ((binary data).pOffset i + BitVec.ofNat 32 j).toNat + k % PGSIZE = _
      rw [BitVec.toNat_add, hjNat]
      omega
    case isFalse => rfl

end Kernel

/-- The kernel `name` has been loaded into the guest as its file says. -/
def KernelLoaded (w : World) (buf guest path : Word) (data : List Byte) : Prop :=
  ∃ w', copyKernel memory buf guest path w = .ok (0, w') ∧ HoldsKernel w' guest data

section Loaded

variable (h : w.Ready buf path name) (hguest : w.HasGuest guest) (hkernel : IsKernel (w.disk name).data)
include h hguest hkernel

/-- A kernel is loaded only if its segments begin at page boundaries. -/
theorem aligned_of_loaded (hloaded : KernelLoaded w buf guest path (w.disk name).data) :
  Aligned (w.disk name).data
  := by
  obtain ⟨w', heq, -⟩ := hloaded
  have hsafe : HeadersOr (fun _ => True) "in vm.c in map guest" (w.disk name)
      (guestSegment (binary (w.disk name).data)) :=
    ⟨fun i hi _ => hkernel.table i hi, fun _ _ _ _ _ _ => trivial⟩
  have hend := (copyKernel_ends h hguest rfl World.Header.memory_shows (fun _ => hsafe)).of_eq heq
  obtain ⟨-, himage, i, w1, w2, -, -, -, hsegs, -⟩ := hend.loaded (by decide)
  use himage.1
  intro i hi hne
  have hpos : 0 < ((binary (w.disk name).data).pMemsz i).toNat := by
    rw [Nat.pos_iff_ne_zero]
    exact fun hzero => hne (BitVec.eq_of_toNat_eq hzero)
  have haddr := (hsegs.fits i (Nat.zero_le i) hi.1 hi.2 0 hpos (Nat.zero_mod _)).1
  rw [off_zero] at haddr
  exact haddr.2

/-- If nothing is refused, a kernel whose segments begin at page boundaries is loaded. -/
theorem loaded_of_aligned (hwill : w.Willing) (hopen : w.CanOpen name)
    (haligned : Aligned (w.disk name).data) :
  KernelLoaded w buf guest path (w.disk name).data
  := by
  have hfits : ∀ i < (binary (w.disk name).data).ePhnum,
      (binary (w.disk name).data).pType i = ELF_PROG_LOAD →
      (guestSegment (binary (w.disk name).data) i).Fits (w.disk name) :=
    fun i hi hload => hkernel.fits rfl haligned ⟨hi, hload⟩
  have hsafe : HeadersOr (fun _ => False) "in vm.c in map guest" (w.disk name)
      (guestSegment (binary (w.disk name).data)) := by
    constructor
    case inBuffer => exact fun i hi _ => hkernel.table i hi
    case pages => exact fun i hi _ hload bad hbad => hbad.addr (hfits i hi hload bad hbad.mem hbad.page).1
  obtain ⟨r, w', heq, hend⟩ :=
    (copyKernel_ends h hguest rfl World.Header.memory_shows (fun _ => hsafe)).returns
  obtain rfl := hend.loads ⟨hwill, hopen, haligned.1, hkernel.magic⟩ hfits
  obtain ⟨-, -, i, w1, w2, -, hwill1, hself1, hsegs, hclosed⟩ := hend.loaded (by decide)
  refine ⟨w', heq, ?_⟩
  intro i hi k hk
  have hne : guest ≠ w2.self := by
    rw [hsegs.loads.self, hself1]
    exact hguest.ne_self
  have hj : k - k % PGSIZE < ((binary (w.disk name).data).pMemsz i).toNat := by omega
  have hmod : (k - k % PGSIZE) % PGSIZE = 0 := by
    simp only [PGSIZE]
    omega
  have hplaced := hsegs.placed i (Nat.zero_le i) hi.1 hi.2
    (fun i' hlt hi' hload => hkernel.pagesApart haligned hlt hi ⟨hi', hload⟩) _ hj hmod
  have hview := hkernel.view rfl haligned hi (hwill1 hwill) hk hplaced
  have hsame : w'.view guest = w2.view guest := by
    funext va
    rw [World.view, World.view, World.translate, World.translate, hclosed.entry hne, hclosed.mem]
  rw [hsame]
  exact hview

end Loaded

/-- With enough memory a kernel is loaded into a guest right exactly if its file is as long as the
buffer for the headers, and its segments begin at page boundaries. -/
theorem copyKernel_right_iff (h : w.Ready buf path name) (hguest : w.HasGuest guest)
    (hwill : w.Willing) (hopen : w.CanOpen name) (hkernel : IsKernel (w.disk name).data) :
  KernelLoaded w buf guest path (w.disk name).data ↔ Aligned (w.disk name).data
  := by
  constructor
  · exact aligned_of_loaded h hguest hkernel
  · exact loaded_of_aligned h hguest hkernel hwill hopen

/-- A kernel with one segment, of four bytes at the physical address `pa`. -/
def smallKernel (pa : Word) : Memory :=
  write32 (write32 (write32 (write32 (write32 (write8 (write32 (fun _ => 0) 0 ELF_MAGIC) 44 1) 28 52)
    52 ELF_PROG_LOAD) 64 pa) 68 4) 72 4

section Small

variable (pa : Word)

theorem smallKernel_ePhnum :
  (binary (headerOnly (smallKernel pa)).data).ePhnum = 1
  := by
  rw [Binary.ePhnum, binary_headerOnly _ (by decide), binary_headerOnly _ (by decide)]
  simp (disch := decide) only [smallKernel, write32_of_disjoint]
  rfl

theorem smallKernel_phdr :
  (binary (headerOnly (smallKernel pa)).data).phdr 0 = 52
  := by
  rw [Binary.phdr, Binary.ePhoff, read32_headerOnly _ (by decide)]
  simp (disch := decide) only [smallKernel, read32_write32, read32_write32_of_disjoint]
  rfl

/-- The fields of its header. -/
theorem smallKernel_fields :
  (binary (headerOnly (smallKernel pa)).data).pOffset 0 = 0
    ∧ (binary (headerOnly (smallKernel pa)).data).pPa 0 = pa
    ∧ (binary (headerOnly (smallKernel pa)).data).pFilesz 0 = 4
    ∧ (binary (headerOnly (smallKernel pa)).data).pMemsz 0 = 4
  := by
  rw [Binary.pOffset, Binary.pPa, Binary.pFilesz, Binary.pMemsz, smallKernel_phdr,
    read32_headerOnly _ (by decide), read32_headerOnly _ (by decide), read32_headerOnly _ (by decide),
    read32_headerOnly _ (by decide)]
  simp (disch := decide) only [smallKernel, read32_write32, read32_write32_of_disjoint,
    read32_write8_of_disjoint]
  simp only [and_true]
  rfl

theorem smallKernel_isLoaded :
  Binary.IsLoaded (binary (headerOnly (smallKernel pa)).data) i ↔ i = 0
  := by
  rw [Binary.IsLoaded, smallKernel_ePhnum, Nat.lt_one_iff, and_iff_left_iff_imp]
  rintro rfl
  rw [Binary.pType, smallKernel_phdr, read32_headerOnly _ (by decide)]
  simp (disch := decide) only [smallKernel, read32_write32, read32_write32_of_disjoint]

theorem smallKernel_isKernel (hpa : pa.toNat + 4 ≤ GUEST_MEM_SZ) :
  IsKernel (headerOnly (smallKernel pa)).data
  := by
  obtain ⟨hoffset, hpPa, hfilesz, hmemsz⟩ := smallKernel_fields pa
  constructor
  case magic =>
    rw [Binary.eMagic, read32_headerOnly _ (by decide)]
    simp (disch := decide) only [smallKernel, read32_write32, read32_write32_of_disjoint,
      read32_write8_of_disjoint]
  case table =>
    intro i hi
    rw [smallKernel_ePhnum] at hi
    obtain rfl := Nat.lt_one_iff.mp hi
    rw [InBuffer, smallKernel_phdr]
    decide
  case sizes =>
    intro i hi
    obtain rfl := (smallKernel_isLoaded pa).mp hi
    rw [hfilesz, hmemsz]
  case memory =>
    intro i hi
    obtain rfl := (smallKernel_isLoaded pa).mp hi
    rw [hpPa, hmemsz]
    exact hpa
  case contained =>
    intro i hi k hk
    obtain rfl := (smallKernel_isLoaded pa).mp hi
    rw [hfilesz] at hk
    have hk' : k < 4 := hk
    rw [hoffset, headerOnly_length]
    change 0 + k < 512
    omega
  case apart =>
    intro i i' hlt hi hi'
    obtain rfl := (smallKernel_isLoaded pa).mp hi
    obtain rfl := (smallKernel_isLoaded pa).mp hi'
    exact (Nat.lt_irrefl _ hlt).elim

theorem smallKernel_aligned :
  Aligned (headerOnly (smallKernel pa)).data ↔ pa.toNat % PGSIZE = 0
  := by
  obtain ⟨-, hpPa, -, hmemsz⟩ := smallKernel_fields pa
  constructor
  · intro h
    have hfirst := h.2 0 ((smallKernel_isLoaded pa).mpr rfl) (by rw [hmemsz]; decide)
    rw [hpPa] at hfirst
    exact hfirst
  · intro h
    use Nat.le_of_eq (headerOnly_length _).symm
    intro i hi _
    obtain rfl := (smallKernel_isLoaded pa).mp hi
    rw [hpPa]
    exact h

theorem oneFile_hasGuest (f : File) (a : Word) :
  (oneFile f a).HasGuest 2
  := ⟨(by decide : (2 : Word) ≠ 1), by decide, rfl⟩

end Small

/-- A kernel at `0x100000` is loaded right. -/
theorem copyKernel_right_small :
  KernelLoaded (oneFile (headerOnly (smallKernel 0x100000)) 0) 0x1800 2 0x1000
    (headerOnly (smallKernel 0x100000)).data
  := by
  apply (copyKernel_right_iff (oneFile_ready _ 0) (oneFile_hasGuest _ 0)
    (oneFile_willing _ (by decide)) (oneFile_canOpen _ (by decide))
    (smallKernel_isKernel 0x100000 (by decide))).mpr
  exact (smallKernel_aligned 0x100000).mpr (by decide)

/-- A kernel at `0x100100` is not, though nothing is refused. -/
theorem copyKernel_unaligned :
  ∃ (w : World) (buf path guest : Word) (name : List Byte), w.Ready buf path name
    ∧ w.HasGuest guest ∧ w.Willing ∧ w.CanOpen name ∧ IsKernel (w.disk name).data
    ∧ HEADER ≤ (w.disk name).data.length ∧ ¬ KernelLoaded w buf guest path (w.disk name).data
  := by
  have hready := oneFile_ready (headerOnly (smallKernel 0x100100)) 0
  have hkernel := smallKernel_isKernel 0x100100 (by decide)
  refine ⟨_, _, _, 2, _, hready, oneFile_hasGuest _ 0, oneFile_willing _ (by decide),
    oneFile_canOpen _ (by decide), hkernel, Nat.le_of_eq (headerOnly_length _).symm, ?_⟩
  intro hloaded
  have haligned := aligned_of_loaded hready (oneFile_hasGuest _ 0) hkernel hloaded
  exact absurd ((smallKernel_aligned 0x100100).mp haligned) (by decide)

end User

end Jos
