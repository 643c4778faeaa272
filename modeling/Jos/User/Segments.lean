import Jos.User.Headers

/-!
# The segments of a program

Segments are mapped in the order of their headers, as long as that is not refused.  A page of
a segment stays mapped, and keeps its bytes, if no later segment has the same page.
-/

namespace Jos

namespace User

open Bytes Prog View

variable {B : Stop World → Prop} {w w' w'' : World} {i q c e : Nat} {fileid dst : Word} {f : File}
  {seg : Nat → Segment} {perm : Nat → Word}

/-- The segments have no page in common. -/
def Segment.PagesApart (s s' : Segment) : Prop :=
  ∀ j < s.memsz.toNat, ∀ j' < s'.memsz.toNat, j % PGSIZE = 0 → j' % PGSIZE = 0 →
    PGNUM (off s.va j) ≠ PGNUM (off s'.va j')

/-- The page `j` bytes behind the first byte of the segment `s` has been mapped from `w` to `w'`. -/
def Segment.Placed (s : Segment) (f : File) (dst perm : Word) (w w' : World) (j : Nat) : Prop :=
  ∃ p, w.next ≤ p ∧ p < w'.next ∧ w'.entry dst (off s.va j) = some ⟨p, perm⟩
    ∧ (w.Willing → InFile f s.filesz s.offset (BitVec.ofNat 32 j) →
      ∀ o < PGSIZE, w'.mem (p * PGSIZE + o)
        = segmentByte f s.filesz s.offset (BitVec.ofNat 32 j) o)

/-- From `w` to `w'` the segments of the headers from `c` up to `e` have been mapped. -/
structure SegmentsEnd (f : File) (q : Nat) (dst : Word) (seg : Nat → Segment) (perm : Nat → Word)
    (c e : Nat) (w w' : World) : Prop where
  loads : Loads q dst w w'
  fits : ∀ i, c ≤ i → i < e → (binary f.data).pType i = ELF_PROG_LOAD → (seg i).Fits f
  placed : ∀ i, c ≤ i → i < e → (binary f.data).pType i = ELF_PROG_LOAD →
    (∀ i', i < i' → i' < e → (binary f.data).pType i' = ELF_PROG_LOAD →
      (seg i).PagesApart (seg i')) →
    ∀ j < (seg i).memsz.toNat, j % PGSIZE = 0 → (seg i).Placed f dst (perm i) w w' j
  others : ∀ va, (∀ i, c ≤ i → i < e → (binary f.data).pType i = ELF_PROG_LOAD →
      ∀ j < (seg i).memsz.toNat, j % PGSIZE = 0 → PGNUM va ≠ PGNUM (off (seg i).va j)) →
    w'.entry dst va = w.entry dst va

namespace SegmentsEnd

theorem nil :
  SegmentsEnd f q dst seg perm e e w w
  := by
  constructor
  case loads => exact Loads.composes.refl w
  case fits => exact fun i hi hi' => by omega
  case placed => exact fun i hi hi' => by omega
  case others => exact fun _ _ => rfl

/-- A header that is not one of a segment to load is passed over. -/
theorem skip (htype : (binary f.data).pType c ≠ ELF_PROG_LOAD)
    (h : SegmentsEnd f q dst seg perm (c + 1) e w w') :
  SegmentsEnd f q dst seg perm c e w w'
  := by
  have hlater : ∀ i, c ≤ i → (binary f.data).pType i = ELF_PROG_LOAD → c + 1 ≤ i := by
    intro i hi hload
    obtain rfl | hlt := Nat.eq_or_lt_of_le hi
    · exact (htype hload).elim
    · exact hlt
  constructor
  case loads => exact h.loads
  case fits => exact fun i hi hi' hload => h.fits i (hlater i hi hload) hi' hload
  case placed => exact fun i hi hi' hload => h.placed i (hlater i hi hload) hi' hload
  case others => exact fun va hva => h.others va (fun i hi => hva i (by omega))

/-- A segment is mapped before the later ones. -/
theorem cons (hq : q < w.next) (hce : c < e) (hload : (binary f.data).pType c = ELF_PROG_LOAD)
    (h1 : SegmentEnd f q dst (seg c) (perm c) w none w')
    (h2 : SegmentsEnd f q dst seg perm (c + 1) e w' w'') :
  SegmentsEnd f q dst seg perm c e w w''
  := by
  constructor
  case loads => exact Loads.composes.trans h1.loads h2.loads
  case fits =>
    intro i hi hi' hload'
    obtain rfl | hlt := Nat.eq_or_lt_of_le hi
    · exact h1.fits
    · exact h2.fits i hlt hi' hload'
  case placed =>
    intro i hi hi' hload' hapart j hj hmod
    obtain rfl | hlt := Nat.eq_or_lt_of_le hi
    · obtain ⟨p, hp, hp', hentry, hbytes⟩ := h1.placed rfl j (Nat.zero_le j) hj hmod
      refine ⟨p, hp, Nat.lt_of_lt_of_le hp' h2.loads.next, ?_, ?_⟩
      · rw [h2.others, hentry]
        exact fun i' hi' he hload j' hj' hmod' => hapart i' hi' he hload j hj j' hj' hmod hmod'
      · -- the page is neither a later one nor that of the descriptor
        intro hwill hin o ho
        rw [← hbytes hwill hin o ho]
        have hqp := Nat.mul_le_mul_right PGSIZE (Nat.succ_le_of_lt (Nat.lt_of_lt_of_le hq hp))
        have hpnext := Nat.mul_le_mul_right PGSIZE (Nat.succ_le_of_lt hp')
        rw [Nat.succ_mul] at hqp hpnext
        apply h2.loads.mem
        · omega
        · have h8 : 8 ≤ PGSIZE := by decide
          rw [AtPosition]
          omega
    · obtain ⟨p, hp, hp', hentry, hbytes⟩ := h2.placed i hlt hi' hload' hapart j hj hmod
      exact ⟨p, Nat.le_trans h1.loads.next hp, hp', hentry,
        fun hwill => hbytes (h1.loads.willing hwill)⟩
  case others =>
    intro va hva
    rw [h2.others va (fun i hi => hva i (by omega))]
    exact h1.others va (fun j _ => hva c (Nat.le_refl c) hce hload j)

end SegmentsEnd

/-- What mapping the segments of the headers from `c` up to `e` does: they are mapped, unless one is
refused. -/
structure SegmentsTried (f : File) (q : Nat) (dst : Word) (seg : Nat → Segment) (perm : Nat → Word)
    (c e : Nat) (w : World) (r : Option Failure) (w' : World) : Prop where
  loads : Loads q dst w w'
  mapped : r = none → SegmentsEnd f q dst seg perm c e w w'
  refused : ∀ x, r = some x → isError x.code = true
  maps : w.Willing → (∀ i, c ≤ i → i < e → (binary f.data).pType i = ELF_PROG_LOAD →
    (seg i).Fits f) → r = none

namespace SegmentsTried

variable {r : Option Failure}

theorem skip (htype : (binary f.data).pType c ≠ ELF_PROG_LOAD)
    (h : SegmentsTried f q dst seg perm (c + 1) e w r w') :
  SegmentsTried f q dst seg perm c e w r w'
  := by
  constructor
  case loads => exact h.loads
  case mapped => exact fun hr => (h.mapped hr).skip htype
  case refused => exact h.refused
  case maps => exact fun hwill hfits => h.maps hwill (fun i hi => hfits i (by omega))

/-- A segment is refused, and the later ones are not tried. -/
theorem refuse {x : Failure} (hce : c < e) (hload : (binary f.data).pType c = ELF_PROG_LOAD)
    (h : SegmentEnd f q dst (seg c) (perm c) w (some x) w') :
  SegmentsTried f q dst seg perm c e w (some x) w'
  := by
  constructor
  case loads => exact h.loads
  case mapped =>
    intro hr
    cases hr
  case refused => exact h.refused
  case maps => exact fun hwill hfits => h.maps hwill (hfits c (Nat.le_refl c) hce hload)

/-- A segment is mapped, and the later ones are tried. -/
theorem cons (hq : q < w.next) (hce : c < e) (hload : (binary f.data).pType c = ELF_PROG_LOAD)
    (h1 : SegmentEnd f q dst (seg c) (perm c) w none w')
    (h2 : SegmentsTried f q dst seg perm (c + 1) e w' r w'') :
  SegmentsTried f q dst seg perm c e w r w''
  := by
  constructor
  case loads => exact Loads.composes.trans h1.loads h2.loads
  case mapped => exact fun hr => .cons hq hce hload h1 (h2.mapped hr)
  case refused => exact h2.refused
  case maps =>
    intro hwill hfits
    exact h2.maps (h1.loads.willing hwill) (fun i hi => hfits i (by omega))

end SegmentsTried

/-! ### The segments of a program -/

theorem proper_segmentPerm (flags : Word) :
  ProperPerm (segmentPerm flags)
  := by
  rw [segmentPerm]
  split
  · decide
  · decide

/-- The permissions with which the `i`-th segment of a program is mapped. -/
def programPerm (b : Binary) (i : Nat) : Word :=
  segmentPerm (b.pFlags i)

/-- The next header. -/
theorem off_phdr_succ (buf : Word) (b : Binary) (c : Nat) :
  off (off buf (b.phdr c)) 32 = off buf (b.phdr (c + 1))
  := by rw [off_off, phdr_succ]

/-- The first header. -/
theorem phoff_eq (buf : Word) (b : Binary) :
  buf + b.ePhoff = off buf (b.phdr 0)
  := by rw [off, Binary.phdr, Nat.mul_zero, Nat.add_zero, BitVec.ofNat_toNat, BitVec.setWidth_eq]

/-- The segments of a program are mapped, unless one is refused, or has a page that is read and
cannot be mapped. -/
theorem mapSegments_ends {peek : Reader} {buf : Word} {n : Nat} (h : w.Loader i q fileid f dst)
    (hshow : ∀ w', Loads q dst w w' → peek.Shows w' buf (binary f.data))
    (hreach : Reached f (programSegment (binary f.data)) c) (hn : c + n = (binary f.data).ePhnum)
    (hsafe : HeadersOr B "spawn: sys_page_map data: %e" f (programSegment (binary f.data))) :
  (mapSegments peek dst (BitVec.ofNat 32 i) n (off buf ((binary f.data).phdr c))).EndsOr B w
    (SegmentsTried f q dst (programSegment (binary f.data)) (programPerm (binary f.data)) c
      (binary f.data).ePhnum w)
  := by
  induction n generalizing w c with
  | zero =>
      rw [mapSegments, endsOr_pure, ← hn, Nat.add_zero]
      constructor
      case loads => exact Loads.composes.refl w
      case mapped => exact fun _ => .nil
      case refused =>
        intro _ hx
        cases hx
      case maps => exact fun _ _ => rfl
  | succ n ih =>
      have hlt : c < (binary f.data).ePhnum := by omega
      have hnext : c + 1 + n = (binary f.data).ePhnum := by omega
      have hinc := hsafe.inBuffer c hlt hreach
      have hread := hshow w (Loads.composes.refl w)
      have hfield : ∀ {k}, k + 4 ≤ 32 → peek.ph32 (off buf ((binary f.data).phdr c)) k w
          = .ok (read32 (binary f.data) ((binary f.data).phdr c + k), w) :=
        fun hk => hread.ph32_eq hinc hk
      have htype : peek.ph32 (off buf ((binary f.data).phdr c)) 0 w
          = .ok ((binary f.data).pType c, w) := hfield (by decide)
      rw [mapSegments, endsOr_bind, endsOr_of_eq htype, endsOr_ite, off_phdr_succ]
      constructor
      · intro hskip
        apply (ih h hshow (hreach.succ (fun hload => (hskip hload).elim)) hnext).mono
        exact fun r w' h' => h'.skip hskip
      · intro hload
        have hload := not_not.mp hload
        rw [endsOr_bind, endsOr_of_eq (hfield (by decide)), endsOr_bind,
          endsOr_of_eq (hfield (by decide)), endsOr_bind, endsOr_of_eq (hfield (by decide)),
          endsOr_bind, endsOr_of_eq (hfield (by decide)), endsOr_bind,
          endsOr_of_eq (hfield (by decide)), endsOr_bind]
        apply (segment_ends (s := programSegment (binary f.data) c) _ h
          (proper_segmentPerm ((binary f.data).pFlags c)) (hsafe.pages c hlt hreach hload)).mono
        intro r w1 h1
        cases r with
        | some x =>
            simp only
            rw [endsOr_pure]
            apply SegmentsTried.refuse hlt hload
            exact h1
        | none =>
            simp only
            apply (ih (h.loads h1.loads)
              (fun w' h' => hshow w' (Loads.composes.trans h1.loads h'))
              (hreach.succ (fun _ => h1.fits)) hnext).mono
            exact fun r w' h' => .cons h.page_lt hlt hload h1 h'

end User

end Jos
