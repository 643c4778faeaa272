import Jos.User.Reading

/-!
# What mapping a segment does

The pages of a segment are new ones: what the pages hold that were there before stays as it is,
but for the position of the descriptor the file is read through.  The loop over the pages ends,
because one of them would lie above `UTOP` if it went on, and it gives up with a message exactly if
that is a page that was read from the file.
-/

namespace Jos

namespace User

open Bytes Prog View

variable {B : Stop World → Prop} {w w' w'' : World} {i q : Nat} {fileid dst va : Word} {f : File}

/-! ### What loading leaves alone -/

/-- From `w` to `w'` mappings changed at `UTEMP` and in the environment `dst` only, and of the pages
that had been handed out only the position kept in the page `q`. -/
structure Loads (q : Nat) (dst : Word) (w w' : World) : Prop where
  self : w'.self = w.self
  disk : w'.disk = w.disk
  files : w'.files = w.files
  next : w.next ≤ w'.next
  fate : ∃ k, w'.fate = fun n => w.fate (n + k)
  tables : ∃ k, w'.tables = fun n => w.tables (n + k)
  procs : ∀ e, (w'.procs e).isSome = (w.procs e).isSome
  entries : ∀ e va, e ≠ dst → (e = w.self → PGNUM va ≠ PGNUM UTEMP) → w'.entry e va = w.entry e va
  mem : ∀ x, x < w.next * PGSIZE → ¬ AtPosition q x → w'.mem x = w.mem x
  wf : w.Wf → w'.Wf

namespace Loads

theorem composes :
  Composes (Loads q dst)
  := by
  constructor
  case refl =>
    exact fun w => ⟨rfl, rfl, rfl, Nat.le_refl _, ⟨0, rfl⟩, ⟨0, rfl⟩, fun _ => rfl, fun _ _ _ _ => rfl,
      fun _ _ _ => rfl, fun h => h⟩
  case trans =>
    intro w w' w'' h h'
    constructor
    case self => exact h'.self.trans h.self
    case disk => exact h'.disk.trans h.disk
    case files => exact h'.files.trans h.files
    case next => exact Nat.le_trans h.next h'.next
    case fate =>
      obtain ⟨k, hk⟩ := h.fate
      obtain ⟨k', hk'⟩ := h'.fate
      use k' + k
      rw [hk', hk]
      funext n
      exact congrArg w.fate (Nat.add_assoc n k' k)
    case tables =>
      obtain ⟨k, hk⟩ := h.tables
      obtain ⟨k', hk'⟩ := h'.tables
      use k' + k
      rw [hk', hk]
      funext n
      exact congrArg w.tables (Nat.add_assoc n k' k)
    case procs => exact fun e => (h'.procs e).trans (h.procs e)
    case entries =>
      intro e va he hva
      rw [← h.entries e va he hva]
      apply h'.entries e va he
      rw [h.self]
      exact hva
    case mem =>
      intro x hx hat
      rw [← h.mem x hx hat]
      apply h'.mem x _ hat
      exact Nat.lt_of_lt_of_le hx (Nat.mul_le_mul_right _ h.next)
    case wf => exact fun hw => h'.wf (h.wf hw)

theorem willing (h : Loads q dst w w') (hw : w.Willing) :
  w'.Willing
  := by
  obtain ⟨k, hk⟩ := h.fate
  intro n
  rw [hk]
  exact hw _

theorem granted (h : Loads q dst w w') (hw : w.Granted) :
  w'.Granted
  := by
  obtain ⟨k, hk⟩ := h.tables
  intro n
  rw [hk]
  exact hw _

/-- A change of a mapping at `UTEMP`, or in the environment `dst`. -/
theorem setEntry {e : Word} {m : Option Mapped} (hm : ∀ m', m = some m' → m'.page < w.next)
    (he : e = dst ∨ (e = w.self ∧ PGNUM va = PGNUM UTEMP)) :
  Loads q dst w (w.setEntry e va m)
  := by
  constructor
  case self => rfl
  case disk => rfl
  case files => rfl
  case next => exact Nat.le_refl _
  case fate => exact ⟨0, rfl⟩
  case tables => exact ⟨0, rfl⟩
  case procs => exact fun _ => isSome_setEntry _ _
  case entries =>
    intro e' va' he' hva'
    apply entry_setEntry_of_ne
    rintro rfl hnum
    obtain rfl | ⟨hself, htemp⟩ := he
    · exact he' rfl
    · exact hva' hself (hnum.trans htemp)
  case mem => exact fun _ _ _ => rfl
  case wf => exact fun hw => hw.setEntry hm

/-- A new page at `UTEMP`, or in the environment `dst`. -/
theorem alloc {e perm : Word} (he : e = dst ∨ (e = w.self ∧ PGNUM va = PGNUM UTEMP)) :
  Loads q dst w (w.alloc e va perm)
  := by
  constructor
  case self => rfl
  case disk => rfl
  case files => rfl
  case next => exact Nat.le_succ _
  case fate => exact ⟨0, rfl⟩
  case tables => exact ⟨0, rfl⟩
  case procs => exact fun _ => isSome_setEntry _ _
  case entries =>
    intro e' va' he' hva'
    apply entry_setEntry_of_ne
    rintro rfl hnum
    obtain rfl | ⟨hself, htemp⟩ := he
    · exact he' rfl
    · exact hva' hself (hnum.trans htemp)
  case mem =>
    intro x hx _
    change fill w.mem _ _ _ x = _
    rw [fill, if_neg (by omega)]
  case wf => exact fun hw => hw.alloc perm

end Loads

/-- What is served after that, while memory changes in new pages and at the position only. -/
theorem Loads.served {P : Nat → Prop} (h : Loads q dst w w') (hs : Served P w' w'')
    (hP : ∀ x, P x → AtPosition q x ∨ w.next * PGSIZE ≤ x) :
  Loads q dst w w''
  := by
  constructor
  case self => exact hs.self.trans h.self
  case disk => exact hs.disk.trans h.disk
  case files => exact hs.files.trans h.files
  case next => exact Nat.le_trans h.next (Nat.le_of_eq hs.next.symm)
  case fate =>
    obtain ⟨k, hk⟩ := h.fate
    obtain ⟨k', hk'⟩ := hs.fate
    use k' + k
    rw [hk', hk]
    funext n
    exact congrArg w.fate (Nat.add_assoc n k' k)
  case tables =>
    obtain ⟨k, hk⟩ := h.tables
    obtain ⟨k', hk'⟩ := hs.tables
    use k' + k
    rw [hk', hk]
    funext n
    exact congrArg w.tables (Nat.add_assoc n k' k)
  case procs =>
    intro e
    rw [hs.procs]
    exact h.procs e
  case entries =>
    rw [hs.sameProcs.entry]
    exact h.entries
  case mem =>
    intro x hx hat
    rw [← h.mem x hx hat]
    apply hs.mem
    intro hPx
    obtain hx' | hx' := hP x hPx
    · exact hat hx'
    · omega
  case wf => exact fun hw => hs.wf (h.wf hw)

theorem Served.loads (h : Served (fun _ => False) w w') :
  Loads q dst w w'
  := (Loads.composes.refl w).served h (fun _ hx => hx.elim)

/-! ### The parties -/

/-- The file `f` is open at the descriptor `i`, and is loaded into the environment `dst`. Page
tables are to be had. -/
structure World.Loader (w : World) (i q : Nat) (fileid : Word) (f : File) (dst : Word) : Prop where
  wf : w.Wf
  opened : w.Opened i q fileid f
  granted : w.Granted
  ne_self : dst ≠ w.self
  ne_zero : dst ≠ 0
  there : (w.procs dst).isSome

namespace World.Loader

variable (h : w.Loader i q fileid f dst)
include h

theorem page_lt :
  q < w.next
  := h.wf.fresh _ _ _ h.opened.mapped

theorem key_dst :
  w.key dst = dst
  := by rw [World.key, if_neg h.ne_zero]

theorem find_dst :
  ∃ p, w.find dst = some p
  := by
  obtain ⟨p, hp⟩ := Option.isSome_iff_exists.mp h.there
  use p
  rw [World.find, h.key_dst, hp]

/-- Loading does not close the file. -/
theorem loads (hl : Loads q dst w w') :
  w'.Loader i q fileid f dst
  := by
  have hpage := Nat.mul_le_mul_right PGSIZE (Nat.succ_le_of_lt h.page_lt)
  rw [Nat.succ_mul] at hpage
  constructor
  case wf => exact hl.wf h.wf
  case opened =>
    apply h.opened.congr
    · rw [hl.self, hl.entries _ _ h.ne_self.symm (fun _ => PGNUM_fdAddr_ne h.opened.small)]
    · exact hl.files
    · exact fun x _ hx => hl.mem x (by omega)
  case granted => exact hl.granted h.granted
  case ne_self =>
    rw [hl.self]
    exact h.ne_self
  case ne_zero => exact h.ne_zero
  case there =>
    rw [hl.procs]
    exact h.there

end World.Loader

/-! ### One page -/

/-- What the page `k` bytes behind the first byte of a segment takes from the file is read without
an error, if that is not refused. -/
def CanRead (f : File) (filesz fileoffset k : Word) : Prop :=
  k.toNat < filesz.toNat → f.Reads (fileoffset + k) (min PGSIZE (filesz.toNat - k.toNat))

/-- The byte `o` of the page of a segment that starts `k` bytes behind its first byte: a byte of the
file, or `0` where the file part has ended. -/
def segmentByte (f : File) (filesz fileoffset k : Word) (o : Nat) : Byte :=
  if k.toNat + o < filesz.toNat then (f.data[(fileoffset + k).toNat + o]?).getD 0 else 0

/-- The file holds what is read for the page `k` bytes behind the first byte of a segment. -/
def InFile (f : File) (filesz fileoffset k : Word) : Prop :=
  k.toNat < filesz.toNat → isError (fileoffset + k) = false
    ∧ (fileoffset + k).toNat + min PGSIZE (filesz.toNat - k.toNat) ≤ f.data.length

/-- What reading a page of the file to `UTEMP` does. -/
structure PageRead (f : File) (q : Nat) (dst filesz fileoffset k : Word) (w : World)
    (r : Option Failure) (w' : World) : Prop where
  loads : Loads q dst w w'
  same : w'.entry dst = w.entry dst
  here : r = none → w'.entry w.self UTEMP = some ⟨w.next, PTE_PUW⟩ ∧ w.next < w'.next
  bytes : r = none → w.Willing → InFile f filesz fileoffset k →
    ∀ o < PGSIZE, w'.mem (w.next * PGSIZE + o) = segmentByte f filesz fileoffset k o
  readable : r = none → CanRead f filesz fileoffset k
  reads : w.Willing → CanRead f filesz fileoffset k → r = none
  refused : ∀ e, r = some e → isError e.code = true

theorem MIN_eq {filesz k : Word} (hk : k.toNat < filesz.toNat) :
  MIN PAGE (filesz - k) = BitVec.ofNat 32 (min PGSIZE (filesz.toNat - k.toNat))
  := by
  have hpage : PAGE.toNat = 4096 := by decide
  have hsub : (filesz - k).toNat = filesz.toNat - k.toNat := by
    rw [BitVec.toNat_sub]
    omega
  apply BitVec.eq_of_toNat_eq
  rw [MIN, BitVec.toNat_ofNat]
  split
  case isTrue hle =>
    rw [hpage, hsub] at hle
    rw [hpage]
    simp only [PGSIZE]
    omega
  case isFalse hlt =>
    rw [hpage, hsub] at hlt
    rw [hsub]
    simp only [PGSIZE]
    omega

theorem readPage_ends (h : w.Loader i q fileid f dst) {filesz k : Word} (fileoffset : Word)
    (hk : k.toNat < filesz.toNat) :
  (readPage (BitVec.ofNat 32 i) filesz fileoffset k).EndsOr B w
    (PageRead f q dst filesz fileoffset k w)
  := by
  have hkey : w.key 0 = w.self := by rw [World.key, if_pos rfl]
  obtain ⟨p, hp⟩ := h.wf.find_zero
  have halloc := sysPageAlloc_eq userPageAddr_UTEMP.1 proper_puw hp
  rw [hkey] at halloc
  have hfail : ∀ {w1 : World} {e : Failure}, Loads q dst w w1 → w1.entry dst = w.entry dst →
      isError e.code = true → (w.Willing → ¬ CanRead f filesz fileoffset k) →
      PageRead f q dst filesz fileoffset k w (some e) w1 := by
    intro w1 e h1 hsame he hno
    constructor
    case loads => exact h1
    case same => exact hsame
    case here =>
      intro hr
      cases hr
    case bytes =>
      intro hr
      cases hr
    case readable =>
      intro hr
      cases hr
    case reads => exact fun hwill hcan => (hno hwill hcan).elim
    case refused =>
      intro _ hr
      obtain rfl := Option.some.inj hr
      exact he
  rw [readPage, endsOr_bind]
  by_cases hfate : isError (w.fate 0) = true
  · rw [if_pos hfate] at halloc
    have herr : isError (-E_NO_MEM) = true := by decide
    rw [endsOr_of_eq halloc, if_pos herr, endsOr_pure]
    apply hfail (e := ⟨.sysPageAlloc, -E_NO_MEM⟩) Served.asked.loads rfl herr
    intro hwill
    rw [hwill 0] at hfate
    cases hfate
  · rw [if_neg hfate] at halloc
    obtain ⟨w1, hw1⟩ : ∃ w1, w1 = w.asked.alloc w.self UTEMP PTE_PUW := ⟨_, rfl⟩
    rw [← hw1] at halloc
    have h01 : Loads q dst w w1 := by
      rw [hw1]
      exact Loads.composes.trans Served.asked.loads (Loads.alloc (Or.inr ⟨rfl, rfl⟩))
    have hself1 : w1.self = w.self := h01.self
    have hentry1 : w1.entry w1.self UTEMP = some ⟨w.next, PTE_PUW⟩ := by
      rw [hself1, hw1]
      exact entry_setEntry h.wf.running rfl _
    have hblank1 : ∀ o < PGSIZE, w1.mem (w.next * PGSIZE + o) = 0 := by
      intro o ho
      rw [hw1]
      change fill w.mem (w.next * PGSIZE) PGSIZE 0 _ = _
      rw [fill, if_pos (by omega)]
    have hop1 := (h.loads h01).opened
    have hpage := Nat.mul_le_mul_right PGSIZE (Nat.succ_le_of_lt h.page_lt)
    rw [Nat.succ_mul] at hpage
    have h8 : 8 ≤ PGSIZE := by decide
    rw [endsOr_of_eq halloc, if_neg (by decide), endsOr_bind, endsOr_of_eq (hop1.seek_eq _),
      if_neg (by decide)]
    -- the page is read
    obtain ⟨w2, hw2⟩ : ∃ w2, w2 = w1.setPosition q (fileoffset + k) := ⟨_, rfl⟩
    have h12 : Served (AtPosition q) w1 w2 := by
      rw [hw2]
      exact Served.setPosition _
    have hpos2 : w2.position q = fileoffset + k := by
      rw [hw2]
      exact position_setPosition _
    have hop2 : w2.Opened i q fileid f := hop1.served h12 (fun _ _ _ hx => hx)
    obtain ⟨size, hsize⟩ : ∃ size, size = min PGSIZE (filesz.toNat - k.toNat) := ⟨_, rfl⟩
    have hsizePage : size ≤ PGSIZE := by omega
    have hbuf2 : w2.Buffer UTEMP size (fun o => w.next * PGSIZE + o) :=
      (buffer_page userPageAddr_UTEMP.1.2 hentry1 hsizePage).served h12
    have hapart : Apart (fun o => w.next * PGSIZE + o) size q := by
      intro o _
      right
      change _ ≤ w.next * PGSIZE + o
      omega
    have hgranted2 : w2.Granted := h12.granted (h01.granted h.granted)
    have hsmall : size < 2 ^ 31 := by
      simp only [PGSIZE] at hsizePage
      omega
    rw [← hw2, MIN_eq hk, ← hsize, endsOr_bind]
    apply (readn_ends hop2 hbuf2 hapart hgranted2 hsmall).mono
    intro r w3 h3
    have h13 : Served (fun x => AtPosition q x ∨ Among (fun o => w.next * PGSIZE + o) 0 size x) w1 w3 :=
      Served.composes.trans (h12.mono (fun _ hx => Or.inl hx)) h3.served
    have h03 : Loads q dst w w3 := by
      apply h01.served h13
      rintro x (hx | ⟨o, -, -, rfl⟩)
      · exact Or.inl hx
      · exact Or.inr (Nat.le_add_right _ _)
    have hsame3 : w3.entry dst = w.entry dst := by
      funext va'
      rw [h13.sameProcs.entry, hw1]
      exact entry_setEntry_of_ne (fun hself => (h.ne_self hself).elim) _
    have hnext : w.next < w3.next := by
      rw [h13.next, hw1]
      exact Nat.lt_succ_self _
    have hwill2 : w.Willing → w2.Willing := fun hwill => h12.willing (h01.willing hwill)
    rw [endsOr_ite]
    constructor
    · intro herr
      rw [endsOr_pure]
      apply hfail (e := ⟨.readn, r⟩) h03 hsame3 herr
      intro hwill hcan
      have hcan' := hcan hk
      rw [← hsize] at hcan'
      have hok := h3.reads (hwill2 hwill) (by rw [hpos2]; exact hcan')
      rw [herr] at hok
      cases hok
    · intro hok
      rw [Bool.not_eq_true] at hok
      rw [endsOr_pure]
      constructor
      case loads => exact h03
      case same => exact hsame3
      case here =>
        intro _
        refine ⟨?_, hnext⟩
        rw [h13.sameProcs.entry, ← hself1]
        exact hentry1
      case bytes =>
        intro _ hwill hin o ho
        obtain ⟨hoffset, hlen⟩ := hin hk
        have hcount := h3.count (hwill2 hwill) (by rw [hpos2]; exact hoffset)
        obtain ⟨got, hgot, -, hgotn, hbytes⟩ := h3.bytes hok
        rw [hpos2] at hcount hbytes
        have hsame : got = size := by
          have hNat := congrArg BitVec.toNat (hgot.symm.trans hcount)
          rw [BitVec.toNat_ofNat, BitVec.toNat_ofNat] at hNat
          omega
        rw [segmentByte]
        split
        case isTrue hin' =>
          have hbyte := hbytes hoffset o (Nat.zero_le o) (by omega)
          rw [Nat.sub_zero] at hbyte
          rw [hbyte]
          rfl
        case isFalse hout =>
          rw [h13.mem, hblank1 o ho]
          rintro (hx | ⟨j, -, hj, hx⟩)
          · rw [AtPosition] at hx
            omega
          · have hoj : o = j := Nat.add_left_cancel hx
            omega
      case readable =>
        intro _ _
        have hread := h3.readable hok
        rw [hpos2, Nat.sub_zero, hsize] at hread
        exact hread
      case reads => exact fun _ _ => rfl
      case refused =>
        intro _ hr
        cases hr

/-- What mapping the page `k` bytes behind `va` does. -/
structure PageEnd (f : File) (q : Nat) (dst va filesz fileoffset perm k : Word) (w : World)
    (r : Option Failure) (w' : World) : Prop where
  loads : Loads q dst w w'
  addr : r = none → UserPageAddr (va + k)
  placed : r = none → ∃ p, w.next ≤ p ∧ p < w'.next ∧ w'.entry dst (va + k) = some ⟨p, perm⟩
    ∧ (w.Willing → InFile f filesz fileoffset k →
      ∀ o < PGSIZE, w'.mem (p * PGSIZE + o) = segmentByte f filesz fileoffset k o)
  others : ∀ va', PGNUM va' ≠ PGNUM (va + k) → w'.entry dst va' = w.entry dst va'
  readable : r = none → CanRead f filesz fileoffset k
  reads : w.Willing → UserPageAddr (va + k) → CanRead f filesz fileoffset k → r = none
  refused : ∀ e, r = some e → isError e.code = true

section Page

variable {perm filesz k : Word} (h : w.Loader i q fileid f dst) (hperm : ProperPerm perm)
  (fileoffset : Word)
include h hperm

/-- A blank page is mapped. -/
theorem mapBlank_ends (msg : String) (va : Word) (hk : k.toNat ≥ filesz.toNat) :
  (mapPage msg dst va (BitVec.ofNat 32 i) filesz fileoffset perm k).EndsOr B w
    (PageEnd f q dst va filesz fileoffset perm k w)
  := by
  have hfail : ∀ {w1 : World} {e : Word}, Loads q dst w w1 → w1.entry dst = w.entry dst →
      isError e = true → (w.Willing → ¬ UserPageAddr (va + k)) →
      PageEnd f q dst va filesz fileoffset perm k w (some ⟨.sysPageAlloc, e⟩) w1 := by
    intro w1 e h1 hentry he hno
    constructor
    case loads => exact h1
    case addr =>
      intro hr
      cases hr
    case placed =>
      intro hr
      cases hr
    case others =>
      intro va' _
      rw [hentry]
    case readable =>
      intro hr
      cases hr
    case reads => exact fun hwill haddr _ => (hno hwill haddr).elim
    case refused =>
      intro _ hr
      obtain rfl := Option.some.inj hr
      exact he
  obtain ⟨p, hp⟩ := h.find_dst
  rw [mapPage, if_pos hk, endsOr_bind]
  by_cases haddr : UserPageAddr (va + k)
  · have halloc := sysPageAlloc_eq haddr hperm hp
    rw [h.key_dst] at halloc
    by_cases hfate : isError (w.fate 0) = true
    · have herr : isError (-E_NO_MEM) = true := by decide
      rw [if_pos hfate] at halloc
      rw [endsOr_of_eq halloc, if_pos herr, endsOr_pure]
      apply hfail Served.asked.loads rfl herr
      intro hwill
      rw [hwill 0] at hfate
      cases hfate
    · rw [if_neg hfate] at halloc
      rw [endsOr_of_eq halloc, if_neg (by decide), endsOr_pure]
      constructor
      case loads => exact Loads.composes.trans Served.asked.loads (Loads.alloc (Or.inl rfl))
      case addr => exact fun _ => haddr
      case placed =>
        intro _
        refine ⟨w.next, Nat.le_refl _, Nat.lt_succ_self _, entry_setEntry h.there rfl _, ?_⟩
        intro _ _ o ho
        change fill w.mem (w.next * PGSIZE) PGSIZE 0 _ = _
        rw [fill, if_pos (by omega), segmentByte, if_neg (by omega)]
      case others => exact fun va' hva' => entry_setEntry_of_ne (fun _ => hva') _
      case readable => exact fun _ hlt => (Nat.not_lt_of_ge hk hlt).elim
      case reads => exact fun _ _ _ => rfl
      case refused =>
        intro _ hr
        cases hr
  · have halloc : sysPageAlloc dst (va + k) perm w = .ok (-E_INVAL, w) := by
      rw [sysPageAlloc, if_pos haddr]
      rfl
    have herr : isError (-E_INVAL) = true := by decide
    rw [endsOr_of_eq halloc, if_pos herr, endsOr_pure]
    exact hfail (Loads.composes.refl w) rfl herr (fun _ => haddr)

omit hperm in
/-- No page is mapped at a bad address. -/
theorem sysPageMap_bad (haddr : ¬ UserPageAddr (va + k)) :
  sysPageMap 0 UTEMP dst (va + k) perm w = .ok (-E_INVAL, w)
  := by
  obtain ⟨p, hp⟩ := h.wf.find_zero
  obtain ⟨p', hp'⟩ := h.find_dst
  rw [sysPageMap, get_bind, hp]
  simp only
  rw [hp']
  simp only
  rw [if_pos (Or.inr haddr)]
  rfl

/-- A page of the file that is read has an address where it may be, or giving up is allowed. -/
theorem mapRead_ends (msg : String) (hk : k.toNat < filesz.toNat)
    (haddr : CanRead f filesz fileoffset k → UserPageAddr (va + k) ∨ B (.panic msg)) :
  (mapPage msg dst va (BitVec.ofNat 32 i) filesz fileoffset perm k).EndsOr B w
    (PageEnd f q dst va filesz fileoffset perm k w)
  := by
  rw [mapPage, if_neg (Nat.not_le_of_lt hk), endsOr_bind]
  apply (readPage_ends h fileoffset hk).mono
  intro r w1 h1
  cases r with
  | some e =>
      simp only
      rw [endsOr_pure]
      constructor
      case loads => exact h1.loads
      case addr =>
        intro hr
        cases hr
      case placed =>
        intro hr
        cases hr
      case others =>
        intro va' _
        rw [h1.same]
      case readable => exact h1.readable
      case reads => exact fun hwill _ hcan => h1.reads hwill hcan
      case refused => exact h1.refused
  | none =>
      have hl1 := h.loads h1.loads
      by_cases haddr' : ¬ UserPageAddr (va + k)
      · simp only
        rw [endsOr_bind, endsOr_of_eq (sysPageMap_bad hl1 haddr'), if_pos (by decide), endsOr_panic]
        exact (haddr (h1.readable rfl)).resolve_left haddr'
      have haddr := not_not.mp haddr'
      obtain ⟨hhere, hnext⟩ := h1.here rfl
      have hself1 := h1.loads.self
      have hkey1 : w1.key 0 = w.self := by rw [World.key, if_pos rfl, hself1]
      obtain ⟨p, hp⟩ := hl1.wf.find_zero
      obtain ⟨p', hp'⟩ := hl1.find_dst
      have hwrite : ¬ (perm &&& PTE_W ≠ 0 ∧ PTE_PUW &&& PTE_W = 0) := fun hw => by
        have hno : PTE_PUW &&& PTE_W ≠ 0 := by decide
        exact hno hw.2
      have hmap := sysPageMap_eq userPageAddr_UTEMP.1 haddr hperm hp hp' (by rw [hkey1]; exact hhere)
        hwrite
      rw [if_neg (fun h => by rw [hl1.granted 0] at h; cases h.1), hl1.key_dst] at hmap
      obtain ⟨w2, hw2⟩ : ∃ w2, w2 = w1.askedTable.setEntry dst (va + k) (some ⟨w.next, perm⟩) :=
        ⟨_, rfl⟩
      rw [← hw2] at hmap
      have h12 : Loads q dst w1 w2 := by
        rw [hw2]
        apply Loads.composes.trans Served.askedTable.loads
        apply Loads.setEntry _ (Or.inl rfl)
        intro m hm
        obtain rfl := Option.some.inj hm
        exact hnext
      have h02 := Loads.composes.trans h1.loads h12
      have hkey2 : w2.key 0 = w.self := by rw [World.key, if_pos rfl, h02.self]
      obtain ⟨p2, hp2⟩ := (h02.wf h.wf).find_zero
      have hunmap := sysPageUnmap_eq userPageAddr_UTEMP.1 hp2
      rw [hkey2] at hunmap
      simp only
      rw [endsOr_bind, endsOr_of_eq hmap, if_neg (by decide), endsOr_bind, endsOr_of_eq hunmap,
        endsOr_pure]
      have hentry : ∀ va', (w2.setEntry w.self UTEMP none).entry dst va' = w2.entry dst va' :=
        fun va' => entry_setEntry_of_ne (fun hself => (h.ne_self hself).elim) _
      constructor
      case loads =>
        apply Loads.composes.trans h02
        apply Loads.setEntry _ (Or.inr ⟨h02.self.symm, rfl⟩)
        intro m hm
        cases hm
      case addr => exact fun _ => haddr
      case placed =>
        intro _
        refine ⟨w.next, Nat.le_refl _, Nat.lt_of_lt_of_le hnext h12.next, ?_, ?_⟩
        · rw [hentry, hw2]
          exact entry_setEntry hl1.there rfl _
        · intro hwill hin o ho
          have hmem : w2.mem = w1.mem := by
            rw [hw2]
            rfl
          change w2.mem _ = _
          rw [hmem]
          exact h1.bytes rfl hwill hin o ho
      case others =>
        intro va' hva'
        rw [hentry, hw2, ← h1.same]
        exact entry_setEntry_of_ne (fun _ => hva') _
      case readable => exact fun _ => h1.readable rfl
      case reads => exact fun _ _ _ => rfl
      case refused =>
        intro _ hr
        cases hr

/-- A page is mapped, or that is refused, unless it is one of the file and its address is bad. -/
theorem mapPage_ends (msg : String) (haddr : k.toNat < filesz.toNat → CanRead f filesz fileoffset k →
      UserPageAddr (va + k) ∨ B (.panic msg)) :
  (mapPage msg dst va (BitVec.ofNat 32 i) filesz fileoffset perm k).EndsOr B w
    (PageEnd f q dst va filesz fileoffset perm k w)
  := by
  obtain hk | hk := Nat.lt_or_ge k.toNat filesz.toNat
  · exact mapRead_ends h hperm fileoffset msg hk (haddr hk)
  · exact mapBlank_ends h hperm fileoffset msg va hk

omit hperm in
/-- A page of the file that is read, and has a bad address, is not mapped. -/
theorem mapPage_panics (msg : String) (hwill : w.Willing) (hk : k.toNat < filesz.toNat)
    (hcan : CanRead f filesz fileoffset k) (haddr : ¬ UserPageAddr (va + k)) :
  mapPage msg dst va (BitVec.ofNat 32 i) filesz fileoffset perm k w = .error (.panic msg)
  := by
  obtain ⟨r, w1, heq, h1⟩ :=
    (readPage_ends (B := fun _ => False) h fileoffset hk).returns
  have hnone := h1.reads hwill hcan
  subst hnone
  rw [mapPage, if_neg (Nat.not_le_of_lt hk), bind_of_eq heq]
  simp only
  rw [bind_of_eq (sysPageMap_bad (h.loads h1.loads) haddr), if_pos (by decide)]
  rfl

end Page

/-! ### All pages -/

/-- Pages of a segment do not come twice. -/
theorem PGNUM_off_ne (va : Word) {j j' : Nat} (hlt : j < j') (hj' : j' < 2 ^ 32)
    (hj : j % PGSIZE = 0) (hmod : j' % PGSIZE = 0) :
  PGNUM (off va j) ≠ PGNUM (off va j')
  := by
  have hva := va.isLt
  simp only [PGSIZE] at hj hmod
  rw [PGNUM_eq, PGNUM_eq, off_toNat, off_toNat]
  omega

/-- Some page lies above `UTOP`. -/
theorem exists_bad_page (va : Word) :
  ∃ j < 2 ^ 32, j % PGSIZE = 0 ∧ ¬ UserPageAddr (off va j)
  := by
  have hva := va.isLt
  have htop : UTOP = 4005560320 := rfl
  use 2 ^ 32 - 4096 - va.toNat / 4096 * 4096
  refine ⟨by omega, ?_, ?_⟩
  · simp only [PGSIZE]
    omega
  · rintro ⟨hlt, -⟩
    rw [off_toNat, htop] at hlt
    omega

/-- The page `bad` bytes behind `va` is one of the file, and has a bad address. It is read, and the
pages from the one `k` bytes behind `va` on that come before it can be mapped. -/
structure FirstBad (f : File) (va memsz filesz fileoffset : Word) (k bad : Nat) : Prop where
  mem : bad < memsz.toNat
  file : bad < filesz.toNat
  page : bad % PGSIZE = 0
  before : ∀ j, k ≤ j → j < bad → j % PGSIZE = 0 → UserPageAddr (off va j)
    ∧ CanRead f filesz fileoffset (BitVec.ofNat 32 j)
  read : CanRead f filesz fileoffset (BitVec.ofNat 32 bad)
  addr : ¬ UserPageAddr (off va bad)

/-- The page is the first bad one, too, if one starts with a page before that can be mapped. -/
theorem FirstBad.earlier {memsz filesz fileoffset : Word} {k bad : Nat}
    (h : FirstBad f va memsz filesz fileoffset (k + PGSIZE) bad) (hk : k % PGSIZE = 0)
    (haddr : UserPageAddr (off va k)) (hcan : CanRead f filesz fileoffset (BitVec.ofNat 32 k)) :
  FirstBad f va memsz filesz fileoffset k bad
  := by
  constructor
  case mem => exact h.mem
  case file => exact h.file
  case page => exact h.page
  case before =>
    intro j hj hbad hmod
    obtain rfl | hj' : j = k ∨ k + PGSIZE ≤ j := by
      simp only [PGSIZE] at hk hmod ⊢
      omega
    · exact ⟨haddr, hcan⟩
    · exact h.before j hj' hbad hmod
  case read => exact h.read
  case addr => exact h.addr

/-- What mapping the pages of a segment from the one `k` bytes behind `va` on does. -/
structure PagesEnd (f : File) (q : Nat) (dst va memsz filesz fileoffset perm : Word) (k : Nat)
    (w : World) (r : Option Failure) (w' : World) : Prop where
  loads : Loads q dst w w'
  addr : r = none → ∀ j, k ≤ j → j < memsz.toNat → j % PGSIZE = 0 → UserPageAddr (off va j)
  placed : r = none → ∀ j, k ≤ j → j < memsz.toNat → j % PGSIZE = 0 →
    ∃ p, w.next ≤ p ∧ p < w'.next ∧ w'.entry dst (off va j) = some ⟨p, perm⟩
      ∧ (w.Willing → InFile f filesz fileoffset (BitVec.ofNat 32 j) →
        ∀ o < PGSIZE, w'.mem (p * PGSIZE + o) = segmentByte f filesz fileoffset (BitVec.ofNat 32 j) o)
  others : ∀ va', (∀ j, k ≤ j → j < memsz.toNat → j % PGSIZE = 0 → PGNUM va' ≠ PGNUM (off va j)) →
    w'.entry dst va' = w.entry dst va'
  readable : r = none → ∀ j, k ≤ j → j < memsz.toNat → j % PGSIZE = 0 →
    CanRead f filesz fileoffset (BitVec.ofNat 32 j)
  reads : w.Willing → (∀ j, k ≤ j → j < memsz.toNat → j % PGSIZE = 0 → UserPageAddr (off va j)
    ∧ CanRead f filesz fileoffset (BitVec.ofNat 32 j)) → r = none
  refused : ∀ e, r = some e → isError e.code = true

section Pages

variable {perm memsz filesz : Word} (hperm : ProperPerm perm) (fileoffset : Word)
include hperm

/-- The pages of a segment are mapped, or that is refused, unless a page of the file has a bad
address. The loop ends in any case. -/
theorem mapPages_ends (msg : String) {n k : Nat} (h : w.Loader i q fileid f dst)
    (hk : k % PGSIZE = 0) (hlt : k < 2 ^ 32) (hn : PAGES < n + k / PGSIZE)
    (hprev : ∀ j < k, j % PGSIZE = 0 → UserPageAddr (off va j))
    (haddr : ∀ bad, k ≤ bad → FirstBad f va memsz filesz fileoffset k bad → B (.panic msg)) :
  (mapPages msg dst va memsz (BitVec.ofNat 32 i) filesz fileoffset perm n (BitVec.ofNat 32 k)).EndsOr
    B w (PagesEnd f q dst va memsz filesz fileoffset perm k w)
  := by
  have hpages : PAGES = 1048576 := rfl
  induction n generalizing w k with
  | zero =>
      simp only [PGSIZE] at hn
      omega
  | succ n ih =>
      have hkNat : (BitVec.ofNat 32 k).toNat = k := by
        rw [BitVec.toNat_ofNat, Nat.mod_eq_of_lt hlt]
      rw [mapPages, hkNat, endsOr_ite]
      constructor
      · intro hmem
        rw [endsOr_bind]
        have hfirst : (BitVec.ofNat 32 k).toNat < filesz.toNat →
            CanRead f filesz fileoffset (BitVec.ofNat 32 k) →
            UserPageAddr (va + BitVec.ofNat 32 k) ∨ B (.panic msg) := by
          intro hfile hcan
          rw [hkNat] at hfile
          by_cases hgood : UserPageAddr (off va k)
          · exact Or.inl hgood
          · right
            exact haddr k (Nat.le_refl k) ⟨hmem, hfile, hk, fun j hj hj' => by omega, hcan, hgood⟩
        apply (mapPage_ends h hperm fileoffset msg hfirst).mono
        intro r w1 h1
        cases r with
        | some e =>
            simp only
            rw [endsOr_pure]
            constructor
            case loads => exact h1.loads
            case addr =>
              intro hr
              cases hr
            case placed =>
              intro hr
              cases hr
            case others =>
              exact fun va' hva' => h1.others va' (hva' k (Nat.le_refl k) hmem hk)
            case readable =>
              intro hr
              cases hr
            case reads =>
              intro hwill hall
              obtain ⟨hgood, hcan⟩ := hall k (Nat.le_refl k) hmem hk
              exact h1.reads hwill hgood hcan
            case refused => exact h1.refused
        | none =>
            have hgood : UserPageAddr (off va k) := h1.addr rfl
            have hprev1 : ∀ j < k + PGSIZE, j % PGSIZE = 0 → UserPageAddr (off va j) := by
              intro j hj hjmod
              obtain hjk | rfl : j < k ∨ j = k := by
                simp only [PGSIZE] at hj hjmod hk
                omega
              · exact hprev j hjk hjmod
              · exact hgood
            -- the loop does not go round: a page above `UTOP` would have been mapped
            have hnext : k + PGSIZE < 2 ^ 32 := by
              by_contra hround
              obtain ⟨j, hj, hjmod, hbad⟩ := exists_bad_page va
              exact hbad (hprev1 j (by omega) hjmod)
            have hadd : BitVec.ofNat 32 k + PAGE = BitVec.ofNat 32 (k + PGSIZE) := by
              rw [PAGE, ← BitVec.ofNat_add]
            have hfuel : PAGES < n + (k + PGSIZE) / PGSIZE := by
              rw [Nat.add_div_right _ (by decide)]
              omega
            simp only
            rw [hadd]
            apply (ih (h.loads h1.loads) (by rw [Nat.add_mod_right, hk]) hnext hfuel hprev1
              (fun bad hj hbad => haddr bad (by omega) (hbad.earlier hk hgood (h1.readable rfl)))).mono
            intro r w2 h2
            have hcover : ∀ j, k ≤ j → j % PGSIZE = 0 → j = k ∨ k + PGSIZE ≤ j := by
              intro j hj hjmod
              simp only [PGSIZE] at hjmod hk ⊢
              omega
            have hpageNat : 0 < PGSIZE := by decide
            constructor
            case loads => exact Loads.composes.trans h1.loads h2.loads
            case addr =>
              intro hr j hj hjmem hjmod
              obtain rfl | hj' := hcover j hj hjmod
              · exact hgood
              · exact h2.addr hr j hj' hjmem hjmod
            case placed =>
              intro hr j hj hjmem hjmod
              obtain rfl | hj' := hcover j hj hjmod
              · obtain ⟨p, hp, hp', hentry, hbytes⟩ := h1.placed rfl
                refine ⟨p, hp, Nat.lt_of_lt_of_le hp' h2.loads.next, ?_, ?_⟩
                · rw [h2.others, ← hentry]
                  · rfl
                  · intro j' hj' hjmem' hjmod'
                    apply PGNUM_off_ne va (by omega) _ hjmod hjmod'
                    have hmemlt := memsz.isLt
                    omega
                · intro hwill hin o ho
                  rw [← hbytes hwill hin o ho]
                  have hq := Nat.mul_le_mul_right PGSIZE
                    (Nat.succ_le_of_lt (Nat.lt_of_lt_of_le h.page_lt hp))
                  have hpnext := Nat.mul_le_mul_right PGSIZE (Nat.succ_le_of_lt hp')
                  rw [Nat.succ_mul] at hq hpnext
                  apply h2.loads.mem
                  · omega
                  · have h8 : 8 ≤ PGSIZE := by decide
                    rw [AtPosition]
                    omega
              · obtain ⟨p, hp, hp', hentry, hbytes⟩ := h2.placed hr j hj' hjmem hjmod
                refine ⟨p, Nat.le_trans h1.loads.next hp, hp', hentry, ?_⟩
                exact fun hwill => hbytes (h1.loads.willing hwill)
            case others =>
              intro va' hva'
              rw [h2.others va' (fun j hj => hva' j (by omega))]
              exact h1.others va' (hva' k (Nat.le_refl k) hmem hk)
            case readable =>
              intro hr j hj hjmem hjmod
              obtain rfl | hj' := hcover j hj hjmod
              · exact h1.readable rfl
              · exact h2.readable hr j hj' hjmem hjmod
            case reads =>
              intro hwill hall
              exact h2.reads (h1.loads.willing hwill) (fun j hj => hall j (by omega))
            case refused => exact h2.refused
      · intro hend
        rw [endsOr_pure]
        constructor
        case loads => exact Loads.composes.refl w
        case addr => exact fun _ j hj hjmem => by omega
        case placed => exact fun _ j hj hjmem => by omega
        case others => exact fun _ _ => rfl
        case readable => exact fun _ j hj hjmem => by omega
        case reads => exact fun _ _ => rfl
        case refused =>
          intro _ hr
          cases hr

/-- If nothing is refused, a page of the file with a bad address is reached. -/
theorem mapPages_panics (msg : String) {n k bad : Nat} (h : w.Loader i q fileid f dst)
    (hwill : w.Willing) (hk : k % PGSIZE = 0) (hn : PAGES < n + k / PGSIZE) (hkbad : k ≤ bad)
    (hbad : FirstBad f va memsz filesz fileoffset k bad) :
  mapPages msg dst va memsz (BitVec.ofNat 32 i) filesz fileoffset perm n (BitVec.ofNat 32 k) w
    = .error (.panic msg)
  := by
  have hpages : PAGES = 1048576 := rfl
  have hmemlt := memsz.isLt
  have hmem := hbad.mem
  have hfile := hbad.file
  induction n generalizing w k with
  | zero =>
      simp only [PGSIZE] at hn
      omega
  | succ n ih =>
      have hkNat : (BitVec.ofNat 32 k).toNat = k := by
        rw [BitVec.toNat_ofNat]
        omega
      have hkfile : (BitVec.ofNat 32 k).toNat < filesz.toNat := by omega
      rw [mapPages, if_pos (by omega)]
      obtain rfl | hlt := Nat.eq_or_lt_of_le hkbad
      · rw [bind_of_error (mapPage_panics h fileoffset msg hwill hkfile hbad.read hbad.addr)]
      · obtain ⟨hgood, hcan⟩ := hbad.before k (Nat.le_refl k) hlt hk
        obtain ⟨r, w1, heq, h1⟩ :=
          (mapPage_ends (B := fun _ => False) h hperm fileoffset msg
            (fun _ _ => Or.inl hgood)).returns
        obtain rfl : r = none := h1.reads hwill hgood hcan
        have hmod := hbad.page
        have hnext : k + PGSIZE ≤ bad := by
          simp only [PGSIZE] at hmod hk ⊢
          omega
        have hadd : BitVec.ofNat 32 k + PAGE = BitVec.ofNat 32 (k + PGSIZE) := by
          rw [PAGE, ← BitVec.ofNat_add]
        have hfuel : PAGES < n + (k + PGSIZE) / PGSIZE := by
          rw [Nat.add_div_right _ (by decide)]
          omega
        have hbad' : FirstBad f va memsz filesz fileoffset (k + PGSIZE) bad :=
          ⟨hbad.mem, hbad.file, hbad.page, fun j hj => hbad.before j (by omega), hbad.read, hbad.addr⟩
        rw [bind_of_eq heq, hadd]
        exact ih (h.loads h1.loads) (h1.loads.willing hwill) (by rw [Nat.add_mod_right, hk]) hfuel
          hnext hbad'

end Pages

end User

end Jos
