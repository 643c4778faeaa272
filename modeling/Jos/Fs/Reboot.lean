import Jos.Fs.Exhaust
import Jos.Fs.Session
import Jos.Lib.Trace

/-!
# Starting again from the disk

What a file system means depends on the blocks from the super block to the last one only.
`fs_sync` writes these blocks to the disk, so that a server that starts from the disk finds the
volume that the cache showed.  In every history of calls and restarts the file system does what
its volume does.
-/

namespace Jos.Fs

open Bytes Io NameTree

variable {m m' : Memory} {d e f g b : Nat} {name : List Byte}

/-! ### The blocks that matter -/

/-- The blocks from the super block to the last one are the same. -/
def Agrees (m m' : Memory) : Prop :=
  ∀ a, 1 ≤ a / BLKSIZE → a / BLKSIZE < nblocks m → m' a = m a

section Agrees

variable (h : Agrees m m') (hm : Owned m)

include h hm

theorem Agrees.sameBitmap :
  SameBitmap m m'
  := by
  constructor
  · intro a ha ha'
    have hlarge := hm.bitmap.large
    apply h a
    · simp only [s_nblocks, super, BLKSIZE] at ha ha' ⊢
      omega
    · simp only [s_nblocks, super, BLKSIZE] at ha ha' ⊢
      omega
  · intro a ha
    exact h a (Nat.le_trans (by decide) ha.1) (hm.bitmap.reserved_lt ha.2)

/-- The structure of a file is the same. -/
theorem Agrees.struct_same (hf : Live m f) {a : Nat} (ha : f ≤ a) (ha' : a < f + FILESIZE) :
  m' a = m a
  := by
  have hhome := hf.placed.home ha ha'
  apply h a
  · rw [hhome]
    rcases hf.cases with rfl | ⟨-, d, i, -, -, -, hblock, hi⟩
    · decide
    · rw [← hi]
      exact Nat.pos_of_ne_zero hblock
  · rw [hhome]
    exact (hm.fileOk hf).home_lt

/-- The blocks of a file are the same. -/
theorem Agrees.block_same (hf : Live m f) (hb : Owns m f b) {a : Nat} (ha : a / BLKSIZE = b) :
  m' a = m a
  := by
  apply h a
  · rw [ha]
    exact Nat.pos_of_ne_zero hb.1
  · rw [ha]
    exact hm.lt f hf b hb

theorem Agrees.slot_same (hf : Live m f) :
  slot m' f = slot m f
  := by
  apply slot_congr
  · intro a ha
    have hin := InMeta.inside (f := f) (.inr ha)
    exact h.struct_same hm hf hin.1 hin.2
  · exact fun hind a ha => h.block_same hm hf (owns_slot (s := .indirect) hind) ha

theorem Agrees.fileSize (hf : Live m f) :
  Fs.fileSize m' f = Fs.fileSize m f
  := by
  apply fileSize_congr
  intro a ha ha'
  obtain ⟨hin, hin', -⟩ := f_size_inside ha ha'
  exact h.struct_same hm hf hin hin'

theorem Agrees.fileType (hf : Live m f) :
  Fs.fileType m' f = Fs.fileType m f
  := by
  rw [Fs.fileType, Fs.fileType]
  apply read32_congr
  intro x hx hx'
  apply h.struct_same hm hf
  · simp only [f_type] at hx
    omega
  · simp only [f_type, FILESIZE] at hx' ⊢
    omega

theorem Agrees.owns_iff (hf : Live m f) :
  Owns m' f b ↔ Owns m f b
  := by
  rw [Owns, Owns, h.slot_same hm hf]

theorem Agrees.record_iff (hd : Live m d) :
  Record m' d e ↔ Record m d e
  := by
  have hblock : ∀ i, dataBlock m' d i = dataBlock m d i :=
    fun i => congrFun (h.slot_same hm hd) (.data i)
  simp only [Record, h.fileSize hm hd, hblock, entryAddr]

/-- The records of a directory are the same. -/
theorem Agrees.record_same (hd : Live m d) (he : Record m d e) {a : Nat} (ha : e ≤ a)
    (ha' : a < e + FILESIZE) :
  m' a = m a
  := h.block_same hm hd (he.block ha ha').1 rfl

theorem Agrees.first_same (hd : Live m d) (he : Record m d e) :
  m' e = m e
  := h.record_same hm hd he (Nat.le_refl _) (Nat.lt_add_of_pos_right (by decide))

theorem Agrees.nameIs (hd : Live m d) (he : Record m d e) (hname : Proper name) :
  Fs.nameIs m' e name = Fs.nameIs m e name
  := by
  apply nameIs_congr
  intro i hi
  have hshort := hname.short
  apply h.record_same hm hd he (Nat.le_add_right _ _)
  simp only [MAXNAMELEN, FILESIZE] at hshort ⊢
  omega

/-- The files are the same. -/
theorem Agrees.live_iff :
  Live m' g ↔ Live m g
  := by
  constructor
  · intro hg
    induction hg with
    | root => exact .root
    | @entry d i j hd hdir hi hblock hj hname ih =>
        have he := (h.record_iff hm ih).mp ⟨i, j, hi, hblock, hj, rfl⟩
        rw [h.fileType hm ih] at hdir
        rw [h.first_same hm ih he] at hname
        exact he.live ih hdir hname
  · intro hg
    induction hg with
    | root => exact .root
    | @entry d i j hd hdir hi hblock hj hname ih =>
        have he : Record m d (entryAddr m d i j) := ⟨i, j, hi, hblock, hj, rfl⟩
        apply ((h.record_iff hm hd).mpr he).live ih
        · rw [h.fileType hm hd]
          exact hdir
        · rw [h.first_same hm hd he]
          exact hname

/-- Every block still belongs to one slot of one file. -/
theorem Agrees.owned :
  Owned m'
  := by
  have hsame := h.sameBitmap hm
  constructor
  case bitmap => exact hsame.bitmapOk hm.bitmap
  case lt =>
    intro g hg b hb
    rw [h.live_iff hm] at hg
    rw [hsame.nblocks]
    exact hm.lt g hg b ((h.owns_iff hm hg).mp hb)
  case inUse =>
    intro g hg b hb
    rw [h.live_iff hm] at hg
    rw [hsame.isFree]
    exact hm.inUse g hg b ((h.owns_iff hm hg).mp hb)
  case safe =>
    intro g hg b hb
    rw [h.live_iff hm] at hg
    rw [Reserved.congr hsame.nblocks]
    exact hm.safe g hg b ((h.owns_iff hm hg).mp hb)
  case unique =>
    intro g g' s t hg hg' hs heq
    rw [h.live_iff hm] at hg hg'
    rw [h.slot_same hm hg] at hs heq
    rw [h.slot_same hm hg'] at heq
    exact hm.unique g g' s t hg hg' hs heq
  case size =>
    intro g hg
    rw [h.live_iff hm] at hg
    rw [h.fileSize hm hg]
    exact hm.size g hg

omit hm

/-- The file system is still sound. -/
theorem Agrees.sound (hm : Sound m) :
  Sound m'
  := by
  have hdata : ∀ g, Live m g → ∀ i, dataBlock m' g i = dataBlock m g i :=
    fun g hg i => congrFun (h.slot_same hm.toOwned hg) (.data i)
  have hlive := fun g => h.live_iff hm.toOwned (g := g)
  constructor
  · constructor
    · constructor
      · exact h.owned hm.toOwned
      · intro g hg i hi
        rw [hlive] at hg
        rw [hdata g hg] at hi
        rw [h.fileSize hm.toOwned hg]
        exact hm.trim g hg i hi
      · intro g hg hdir
        rw [hlive] at hg
        rw [h.fileType hm.toOwned hg] at hdir
        rw [h.fileSize hm.toOwned hg]
        exact hm.whole g hg hdir
      · intro g hg hdir i hi
        rw [hlive] at hg
        rw [h.fileType hm.toOwned hg] at hdir
        rw [h.fileSize hm.toOwned hg] at hi
        rw [hdata g hg]
        exact hm.full g hg hdir i hi
    · intro g hg hind
      rw [hlive] at hg
      have hsame : ind m' g = ind m g := congrFun (h.slot_same hm.toOwned hg) .indirect
      rw [hsame] at hind
      rw [h.fileSize hm.toOwned hg]
      exact hm.snug g hg hind
    · intro d e hd hdir he hfree
      rw [hlive] at hd
      rw [h.fileType hm.toOwned hd] at hdir
      rw [h.record_iff hm.toOwned hd] at he
      rw [h.first_same hm.toOwned hd he] at hfree
      have hblank := hm.blank d e hd hdir he hfree
      intro a ha ha'
      rw [h.record_same hm.toOwned hd he]
      · exact hblank a ha ha'
      · simp only [f_size] at ha
        omega
      · simp only [f_indirect, FILESIZE] at ha' ⊢
        omega
  case root_dir =>
    rw [h.fileType hm.toOwned .root]
    exact hm.root_dir
  case solid =>
    intro g hg q hq hq'
    rw [hlive] at hg
    rw [h.fileSize hm.toOwned hg] at hq'
    rw [hdata g hg]
    exact hm.solid g hg q hq hq'
  case distinct =>
    intro d hd hdir e e' name he he' hname hin hin'
    rw [hlive] at hd
    rw [h.fileType hm.toOwned hd] at hdir
    rw [h.record_iff hm.toOwned hd] at he he'
    rw [h.nameIs hm.toOwned hd he hname] at hin
    rw [h.nameIs hm.toOwned hd he' hname] at hin'
    exact hm.distinct d hd hdir e e' name he he' hname hin hin'
  case conserved =>
    have hsame := h.sameBitmap hm.toOwned
    intro b hb hres huse
    rw [hsame.nblocks] at hb
    rw [Reserved.congr hsame.nblocks] at hres
    rw [hsame.isFree] at huse
    obtain ⟨g, hg, hown⟩ := hm.conserved b hb hres huse
    exact ⟨g, (hlive g).mpr hg, (h.owns_iff hm.toOwned hg).mpr hown⟩

/-- The volume is the same. -/
theorem Agrees.volume (hm : Sound m) :
  Fs.volume m' = Fs.volume m
  := by
  have hchild : ∀ d, Live m d → child m' d = child m d := by
    intro d hd
    funext name
    rw [child, child, h.fileType hm.toOwned hd]
    split
    case isFalse => rfl
    case isTrue hcond =>
      apply firstRecord_congr (h.fileSize hm.toOwned hd) (h.slot_same hm.toOwned hd)
      · exact fun e he => h.nameIs hm.toOwned hd he hcond.2
      · exact hm.full d hd hcond.1
  have hnode : ∀ g, Live m g → node m' g = node m g := by
    intro g hg
    rw [node, node, h.fileType hm.toOwned hg, h.fileSize hm.toOwned hg]
    congr 2
    apply bytesOf_congr
    intro q _ hq
    rw [Nat.zero_add] at hq
    have hne := hm.solid g hg q (Nat.zero_le _) hq
    have haddr : byteAddr m' g q = byteAddr m g q :=
      byteAddr_kept (fun t _ => congrFun (h.slot_same hm.toOwned hg) t) hne
    rw [byteAt, byteAt, haddr]
    exact h.block_same hm.toOwned hg (owns_slot (s := .data (q / BLKSIZE)) hne) (byteAddr_div m g q)
  funext p
  rw [Fs.volume, Fs.volume, hm.nameTree.resolve_congr hchild]
  cases hg : resolve (child m) s_root p with
  | none => rfl
  | some g => rw [Option.map_some, Option.map_some, hnode g (hm.nameTree.resolve_in .root hg)]

end Agrees

/-! ### Writing everything to the disk -/

variable {α : Type} {s s' : Cache}

/-- A loop on the cache keeps what its body keeps. -/
theorem execs_forUp {body : Nat → Io Unit} (I : Nat → Cache → Prop) {lo n : Nat}
    (step : ∀ i s, lo ≤ i → i < lo + n → I i s → Execs (body i) s (fun _ s' => I (i + 1) s'))
    (h : I lo s) :
  Execs (forUp lo n body) s (fun _ s' => I (lo + n) s')
  := by
  induction n generalizing lo s with
  | zero => exact execs_pure h
  | succ n ih =>
      rw [forUp]
      apply execs_bind
      apply (step lo s (Nat.le_refl lo) (by omega) h).mono
      intro _ s₁ h₁
      have hrest := ih (fun i s hi hi' => step i s (by omega) (by omega)) h₁
      rw [Nat.add_assoc, Nat.add_comm 1] at hrest
      exact hrest

/-- The blocks from the super block to the one before `i` are on the disk, and the others are as
they were. -/
structure Synced (s : Cache) (i : Nat) (s' : Cache) : Prop where
  coherent : Coherent s'
  view : s'.view = s.view
  written : ∀ a, 1 ≤ a / BLKSIZE → a / BLKSIZE < i → s'.disk a = s.view a
  others : ∀ a, a / BLKSIZE = 0 ∨ i ≤ a / BLKSIZE → s'.disk a = s.disk a

/-- `fs_sync` writes what the cache shows to the disk. -/
theorem execs_fsSync (hs : Coherent s) (hm : BitmapOk s.view) :
  Execs fsSync s (fun _ s' => Synced s (nblocks s.view) s')
  := by
  have hlarge := hm.large
  have hsmall := hm.small
  rw [fsSync]
  apply execs_bind
  apply execs_nblocks hs
  intro n hn
  have hloop : Execs (forUp 1 (n.toNat - 1) (fun i => do
      let va ← diskaddr (BitVec.ofNat 32 i)
      flushBlock va)) s (fun _ s' => Synced s (1 + (n.toNat - 1)) s') := by
    apply execs_forUp (fun i s' => Synced s i s')
    · intro i t hi hi' ht
      have hlt : i < nblocks t.view := by
        rw [ht.view]
        omega
      have hi32 : (BitVec.ofNat 32 i).toNat = i := by
        rw [BitVec.toNat_ofNat]
        simp only [DISKSIZE, BLKSIZE] at hsmall
        omega
      apply execs_bind
      apply execs_diskaddr ht.coherent
      · intro hzero
        rw [hzero] at hi32
        change 0 = i at hi32
        omega
      · rw [hi32]
        exact hlt
      · rw [hi32, flushBlock]
        have haddr : i * BLKSIZE < DISKSIZE := by
          simp only [DISKSIZE, BLKSIZE] at hsmall ⊢
          omega
        obtain ⟨t', heq, ht', hview, hdisk, -⟩ := flushBlock_ok ht.coherent haddr
        have hdiv : i * BLKSIZE / BLKSIZE = i := Nat.mul_div_cancel _ (by decide)
        apply execs_sync heq
        constructor
        case coherent => exact ht'
        case view => exact hview.trans ht.view
        case written =>
          intro a ha ha'
          rw [hdisk, writeBack, copyBlock, hdiv, ht.view]
          split
          case isTrue => rfl
          case isFalse hne => exact ht.written a ha (by omega)
        case others =>
          intro a ha
          rw [hdisk, writeBack, copyBlock, hdiv, if_neg (by omega)]
          exact ht.others a (by omega)
    · exact ⟨hs, rfl, fun a ha ha' => by omega, fun _ _ => rfl⟩
  have hcount : 1 + (n.toNat - 1) = nblocks s.view := by omega
  rw [hcount] at hloop
  exact hloop

theorem fsSync_returns (hs : Coherent s) (hm : BitmapOk s.view) :
  ∃ s', exec fsSync s = (.ok (), s') ∧ Synced s (nblocks s.view) s'
  := by
  obtain ⟨⟨⟩, s', heq, hsynced⟩ := execs_fsSync hs hm
  exact ⟨s', heq, hsynced⟩

/-- What is on the disk after `fs_sync` agrees with the cache. -/
theorem Synced.agrees (h : Synced s (nblocks s.view) s') :
  Agrees s.view s'.disk
  := h.written

/-- A server that starts from the disk after `fs_sync` finds the same volume, in a sound file
system. -/
theorem Synced.restart (h : Synced s (nblocks s.view) s') (hm : Sound s.view) :
  Sound (Cache.booted s'.disk).view ∧ volume (Cache.booted s'.disk).view = volume s.view
  := by
  rw [view_booted]
  exact ⟨h.agrees.sound hm, h.agrees.volume hm⟩

/-! ### Histories -/

/-- What happens to a file server: it serves a call, or it is started again after `fs_sync`, when
everything that is not on the disk is lost. -/
inductive Happens : Option (Event × Reply) → Cache → Cache → Prop where
  | serve {x : Event × Reply} {s s' : Cache} : Served x s s' → Happens (some x) s s'
  | restart {s s' : Cache} : exec fsSync s = (.ok (), s') → Happens none s (Cache.booted s'.disk)

/-- What it means for the volume: restarts mean nothing. -/
def Means : Option (Event × Reply) → Volume → Volume → Prop
  | some x, V, V' => Meant x V V'
  | none, V, V' => V' = V

/-- A file server that can be used. -/
def Usable (s : Cache) : Prop :=
  Coherent s ∧ Sound s.view

theorem Happens.means {x : Option (Event × Reply)} (hs : Usable s) (h : Happens x s s') :
  Usable s' ∧ Means x (volume s.view) (volume s'.view)
  := by
  cases h with
  | serve h =>
      obtain ⟨ht, hsound, hstep⟩ := exec_ok_of_ends hs.1 (h.1.ends hs.2) h.2
      exact ⟨⟨ht, hsound⟩, hstep.symm⟩
  | restart hexec =>
      have hsynced := (execs_fsSync hs.1 hs.2.bitmap).of_eq hexec
      obtain ⟨hsound, hvolume⟩ := hsynced.restart hs.2
      exact ⟨⟨coherent_booted _, hsound⟩, hvolume⟩

variable {xs : List (Option (Event × Reply))}

/-- The bitmap of the small disk when all blocks are free that no file has. -/
def freeRest : Memory :=
  fun a => if a = 8192 then 0xf0 else if a < 8196 then 0xff else if a = 8196 then 0x07 else 0

variable {rest : Memory}

theorem isFree_freeRest :
  ∀ b < 35, isFree (tiny freeRest rest) b = decide (4 ≤ b)
  := by
  have hword : ∀ w < 2, read32 (tiny freeRest rest) (bitmap + 4 * w)
      = if w = 0 then 0xfffffff0 else 7 := by
    intro w hw
    obtain rfl | rfl : w = 0 ∨ w = 1 := by omega
    · simp [bitmap, BLKSIZE, read32, tiny, freeRest]
    · simp [bitmap, BLKSIZE, read32, tiny, freeRest]
  intro b hb
  rw [isFree, nblocks_tiny, decide_eq_true hb, Bool.true_and, bitmapWord, hword _ (by omega)]
  revert b
  decide

/-- The records of the small disk. -/
theorem record_tiny (he : Record (tiny freeRest rest) d e) (hd : Live (tiny freeRest rest) d) :
  d = s_root ∧ ∃ j < BLKFILES, e = tinyFile + FILESIZE * j
  := by
  obtain ⟨i, j, hi, hblock, hj, rfl⟩ := he
  rcases live_tiny.mp hd with rfl | rfl
  · rw [fileSize_tiny_root, Nat.div_self (by decide)] at hi
    obtain rfl : i = 0 := by omega
    have hthree : dataBlock (tiny freeRest rest) s_root 0 = 3 := slot_tiny_root (.data 0)
    refine ⟨rfl, j, hj, ?_⟩
    rw [entryAddr, hthree]
    rfl
  · rw [fileSize_tiny_file] at hi
    exact absurd hi (Nat.not_lt_zero i)

/-- Only the first record of the small disk has a name. -/
theorem record_tiny_zero {j : Nat} (hj : j < BLKFILES) (hne : j ≠ 0) {a : Nat}
    (ha : tinyFile + FILESIZE * j ≤ a) (ha' : a < tinyFile + FILESIZE * j + FILESIZE) :
  tiny freeRest rest a = 0
  := by
  apply tiny_zero
  simp only [tinyFile, BLKSIZE, FILESIZE, BLKFILES] at hj ha ha' ⊢
  omega

theorem sound_tiny :
  Sound (tiny freeRest rest)
  := by
  have hname : tiny freeRest rest tinyFile = 0x61 := rfl
  have hbits : ∀ b < 4, isFree (tiny freeRest rest) b = false := by
    intro b hb
    rw [isFree_freeRest b (by omega), decide_eq_false (by omega)]
  have hroot : ∀ i, dataBlock (tiny freeRest rest) s_root i = if i = 0 then 3 else 0 := by
    intro i
    have hslot : slot (tiny freeRest rest) s_root (.data i) = if Slot.data i = .data 0 then 3 else 0 :=
      slot_tiny_root (.data i)
    simp only [Slot.data.injEq] at hslot
    exact hslot
  have hfile : ∀ i, dataBlock (tiny freeRest rest) tinyFile i = 0 := fun i => slot_tiny_file (.data i)
  have hreg : fileType (tiny freeRest rest) tinyFile ≠ FTYPE_DIR := by
    rw [fileType_tiny_file]
    decide
  constructor
  · constructor
    · constructor
      · exact owned_tiny hbits
      · intro f hf i hi
        rcases live_tiny.mp hf with rfl | rfl
        · rw [hroot] at hi
          rw [fileSize_tiny_root]
          have hzero : i = 0 := by
            by_contra hne
            exact hi (if_neg hne)
          rw [hzero]
          decide
        · exact absurd (hfile i) hi
      · intro d hd hdir
        rcases live_tiny.mp hd with rfl | rfl
        · rw [fileSize_tiny_root]
          exact Nat.mod_self _
        · exact absurd hdir hreg
      · intro d hd hdir i hi
        rcases live_tiny.mp hd with rfl | rfl
        · rw [fileSize_tiny_root, Nat.div_self (by decide)] at hi
          rw [hroot, if_pos (by omega)]
          decide
        · exact absurd hdir hreg
    · intro f hf hind
      rcases live_tiny.mp hf with rfl | rfl
      · exact absurd (slot_tiny_root .indirect) hind
      · exact absurd (slot_tiny_file .indirect) hind
    · intro d e hd hdir he hfree
      obtain ⟨-, j, hj, rfl⟩ := record_tiny he hd
      have hne : j ≠ 0 := by
        rintro rfl
        rw [Nat.mul_zero, Nat.add_zero, hname] at hfree
        exact absurd hfree (by decide)
      intro a ha ha'
      apply record_tiny_zero hj hne
      · simp only [f_size] at ha
        omega
      · simp only [f_indirect, FILESIZE] at ha' ⊢
        omega
  case root_dir => exact fileType_tiny_root
  case solid =>
    intro f hf q _ hq
    rcases live_tiny.mp hf with rfl | rfl
    · rw [fileSize_tiny_root] at hq
      rw [hroot, if_pos (Nat.div_eq_of_lt hq)]
      decide
    · rw [fileSize_tiny_file] at hq
      exact absurd hq (Nat.not_lt_zero q)
  case distinct =>
    have hfirst : ∀ d e name, Live (tiny freeRest rest) d → Record (tiny freeRest rest) d e →
        Proper name → nameIs (tiny freeRest rest) e name = true → e = tinyFile := by
      intro d e name hd he hproper hin
      obtain ⟨-, j, hj, rfl⟩ := record_tiny he hd
      by_contra hne
      apply hproper.used hin
      apply record_tiny_zero hj _ (Nat.le_refl _) (Nat.lt_add_of_pos_right (by decide))
      rintro rfl
      exact hne rfl
    intro d hd _ e e' name he he' hproper hin hin'
    rw [hfirst d e name hd he hproper hin, hfirst d e' name hd he' hproper hin']
  case conserved =>
    intro b hb hres huse
    rw [nblocks_tiny] at hb
    rw [isFree_freeRest b hb, decide_eq_false_iff_not] at huse
    have hthree : b = 3 := by
      rw [Reserved, nbitblocks, nblocks_tiny] at hres
      simp only [BLKBITSIZE, BLKSIZE] at hres
      omega
    refine ⟨s_root, .root, ?_, .data 0, ?_⟩
    · rw [hthree]
      decide
    · rw [hthree]
      exact slot_tiny_root (.data 0)

theorem usable_tiny :
  Usable (Cache.booted (tiny freeRest rest))
  := by
  refine ⟨coherent_booted _, ?_⟩
  rw [view_booted]
  exact sound_tiny

/-- A file `b` can be created on the small disk. -/
theorem ready_tiny :
  (Event.fileCreate [SLASH, 0x62]).Ready (tiny freeRest rest)
  := by
  constructor
  case string => decide
  case fits => exact fun _ _ => trivial
  case record =>
    intro path heq d hd
    cases heq
    have hcs : components [SLASH, 0x62] = [[0x62]] := by decide
    rw [hcs, parent, Option.filter_eq_some_iff, List.dropLast_singleton, resolve_nil] at hd
    obtain rfl := Option.some.inj hd.1
    have hthree : dataBlock (tiny freeRest rest) s_root 0 = 3 := slot_tiny_root (.data 0)
    have haddr : entryAddr (tiny freeRest rest) s_root 0 1 = tinyFile + FILESIZE * 1 := by
      rw [entryAddr, hthree]
      rfl
    refine ⟨tinyFile + FILESIZE * 1, ⟨0, 1, ?_, ?_, by decide, haddr.symm⟩, ?_⟩
    · rw [fileSize_tiny_root]
      decide
    · rw [hthree]
      decide
    · exact record_tiny_zero (by decide) (by decide) (Nat.le_refl _) (by decide)

end Jos.Fs
