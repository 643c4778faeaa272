import Jos.Fs.Link

/-!
# Calls by path

A client creates, opens, removes, reads, writes, shortens and flushes files by their paths.  Each
call on the file system with its block cache does what it does on the volume, the map from paths to
directories and byte strings.
-/

namespace Jos.Fs

open Bytes Io NameTree

/-! ### What clients ask for -/

/-- A call on a path. -/
inductive Event where
  | fileOpen (path : List Byte)
  | fileCreate (path : List Byte)
  | fileRemove (path : List Byte)
  | fileRead (path : List Byte) (count offset : Word)
  | fileWrite (path : List Byte) (buf : List Byte) (offset : Word)
  | fileSetSize (path : List Byte) (newsize : Word)
  | fileFlush (path : List Byte)

/-- A code or a count, and the bytes that were read. -/
abbrev Reply : Type := Word × List Byte

/-- Open a file, and go on with it. -/
def withFile (path : List Byte) (op : Nat → Io Reply) : Io Reply := do
  match ← fileOpen path with
  | .error r => pure (r, [])
  | .ok f => op f

/-- The call on the file system. -/
def Event.run : Event → Io Reply
  | fileOpen path => withFile path (fun _ => pure (0, []))
  | fileCreate path => do
      let r ← Fs.fileCreate path
      pure (status r, [])
  | fileRemove path => do
      let r ← Fs.fileRemove path
      pure (r, [])
  | fileRead path count offset => withFile path (fun f => Fs.fileRead f count offset)
  | fileWrite path buf offset => withFile path (fun f => do
      let r ← Fs.fileWrite f buf offset
      pure (r, []))
  | fileSetSize path newsize => withFile path (fun f => do
      let r ← Fs.fileSetSize f newsize
      pure (r, []))
  | fileFlush path => withFile path (fun f => do
      Fs.fileFlush f
      pure (0, []))

/-- A change of the bytes of a file. -/
def Volume.withFile (V : Volume) (cs : List (List Byte)) (op : List Byte → Reply × List Byte) :
    Reply × Volume :=
  match V cs with
  | none => ((V.code [] cs, []), V)
  | some .dir => ((0, []), V)
  | some (.file bytes) => ((op bytes).1, Function.update V cs (some (.file (op bytes).2)))

/-- The call on the volume. -/
def Event.step (V : Volume) : Event → Reply × Volume
  | fileOpen path => ((V.code [] (components path), []), V)
  | fileCreate path => (((V.create (components path)).1, []), (V.create (components path)).2)
  | fileRemove path => (((V.remove (components path)).1, []), (V.remove (components path)).2)
  | fileRead path count offset => V.withFile (components path) (fun bytes =>
      ((BitVec.ofNat 32 ((bytes.drop offset.toNat).take count.toNat).length,
        (bytes.drop offset.toNat).take count.toNat), bytes))
  | fileWrite path buf offset => V.withFile (components path) (fun bytes =>
      ((BitVec.ofNat 32 buf.length, []),
        bytes.take offset.toNat ++ buf ++ bytes.drop (offset.toNat + buf.length)))
  | fileSetSize path newsize => V.withFile (components path) (fun bytes =>
      ((0, []), bytes.take newsize.toNat))
  | fileFlush path => V.withFile (components path) (fun bytes => ((0, []), bytes))

/-- The path of a call, which is a string. -/
def Event.path : Event → List Byte
  | fileOpen path => path
  | fileCreate path => path
  | fileRemove path => path
  | fileRead path _ _ => path
  | fileWrite path _ _ => path
  | fileSetSize path _ => path
  | fileFlush path => path

/-- What the call needs of the file `f`. -/
def Event.Fits (m : Memory) (f : Nat) : Event → Prop
  | fileOpen _ => True
  | fileCreate _ => True
  | fileRemove _ => fileType m f = FTYPE_REG
  | fileRead _ _ offset => fileType m f ≠ FTYPE_DIR ∧ offset.toNat < 2 ^ 31
  | fileWrite _ buf offset => fileType m f ≠ FTYPE_DIR ∧ offset.toNat ≤ fileSize m f
      ∧ offset.toNat + buf.length ≤ MAXFILESIZE
      ∧ missing m f (blockCount (newSize m f buf offset)) ≤ avail m
  | fileSetSize _ newsize => fileType m f ≠ FTYPE_DIR ∧ newsize.toNat ≤ fileSize m f
  | fileFlush _ => True

/-- The call can be served: the file fits, and where a file is created there is a free record. -/
structure Event.Ready (m : Memory) (ev : Event) : Prop where
  string : 0 ∉ ev.path
  fits : ∀ f, resolve (child m) s_root (components ev.path) = some f → ev.Fits m f
  record : ∀ path, ev = .fileCreate path → ∀ d, parent m s_root (components path) = some d →
    ∃ e, Record m d e ∧ m e = 0

variable {m m' : Memory} {f : Nat} {cs : List (List Byte)} {path : List Byte} {ev : Event}

/-! ### Bytes of files -/

/-- The bytes of a file. -/
def contents (m : Memory) (f : Nat) : List Byte :=
  bytesOf m f 0 (fileSize m f)

theorem length_bytesOf (m : Memory) (f p k : Nat) :
  (bytesOf m f p k).length = k
  := by
  rw [bytesOf, List.length_map, List.length_range]

theorem bytesOf_congr {p k : Nat} (h : ∀ q, p ≤ q → q < p + k → byteAt m' f q = byteAt m f q) :
  bytesOf m' f p k = bytesOf m f p k
  := by
  apply List.map_congr_left
  intro i hi
  rw [List.mem_range] at hi
  exact h (p + i) (Nat.le_add_right _ _) (by omega)

theorem drop_contents {k : Nat} (hk : k ≤ fileSize m f) :
  (contents m f).drop k = bytesOf m f k (fileSize m f - k)
  := by
  have hsplit := bytesOf_append m f 0 k (fileSize m f - k)
  rw [Nat.add_sub_cancel' hk, Nat.zero_add] at hsplit
  rw [contents, hsplit, List.drop_append_of_le_length, List.drop_of_length_le, List.nil_append]
  · exact Nat.le_of_eq (length_bytesOf m f 0 k)
  · exact Nat.le_of_eq (length_bytesOf m f 0 k).symm

theorem take_bytesOf {p k n : Nat} :
  (bytesOf m f p n).take k = bytesOf m f p (min k n)
  := by
  rcases Nat.le_total k n with hk | hk
  · have hsplit := bytesOf_append m f p k (n - k)
    rw [Nat.add_sub_cancel' hk] at hsplit
    rw [hsplit, Nat.min_eq_left hk, List.take_append_of_le_length, List.take_of_length_le]
    · exact Nat.le_of_eq (length_bytesOf m f p k)
    · exact Nat.le_of_eq (length_bytesOf m f p k).symm
  · rw [Nat.min_eq_right hk, List.take_of_length_le]
    rw [length_bytesOf]
    exact hk

theorem node_file (hreg : fileType m f ≠ FTYPE_DIR) :
  node m f = .file (contents m f)
  := if_neg hreg

/-! ### Changes of the bytes -/

/-- The file `f` has got other bytes. -/
structure Rewritten (m m' : Memory) (f : Nat) (bytes : List Byte) : Prop where
  sound : Sound m'
  moved : Moved m m' f
  contents : Fs.contents m' f = bytes

theorem Rewritten.volume {bytes : List Byte} (h : Rewritten m m' f bytes) (hm : Sound m)
    (hcs : resolve (child m) s_root cs = some f) (hreg : fileType m f ≠ FTYPE_DIR) :
  Fs.volume m' = Function.update (Fs.volume m) cs (some (.file bytes))
  := by
  have hf := hm.nameTree.resolve_in .root hcs
  have hreg' : fileType m' f ≠ FTYPE_DIR := by
    rw [h.moved.fileType_self hm.toOwned hf]
    exact hreg
  rw [h.moved.volume hm hf hreg hcs, node_file hreg', h.contents]

/-- The first blocks need the slots of no other blocks. -/
theorem lt_of_mem_needs {n i : Nat} (h : Slot.data i ∈ needs n) :
  i < n
  := by
  rcases Finset.mem_union.mp h with h | h
  · obtain ⟨j, hj, heq⟩ := Finset.mem_image.mp h
    cases heq
    exact Finset.mem_range.mp hj
  · split at h
    case isTrue => cases Finset.mem_singleton.mp h
    case isFalse => exact absurd h (Finset.notMem_empty _)

theorem lt_of_indirect_mem_needs {n : Nat} (h : Slot.indirect ∈ needs n) :
  NDIRECT < n
  := by
  rcases Finset.mem_union.mp h with h | h
  · obtain ⟨j, -, heq⟩ := Finset.mem_image.mp h
    cases heq
  · split at h
    case isTrue hlt => exact hlt
    case isFalse => exact absurd h (Finset.notMem_empty _)

/-- When the file has all its blocks, no block is missing. -/
theorem Sound.missing (hm : Sound m) (hf : Live m f) :
  missing m f (blockCount (fileSize m f)) = 0
  := missing_eq_zero (hm.solid f hf)

/-- When no slot is missing, walking through the file fills none. -/
theorem Stepped.slot_same {n : Nat} (h : Stepped m m' f n) (hn : Fs.missing m f n = 0) :
  slot m' f = slot m f
  := by
  funext t
  by_contra hne
  have hzero : slot m f t = 0 := by
    by_contra hs
    exact hne (h.grown.kept t hs)
  have hne' : slot m' f t ≠ 0 := by
    rw [← hzero]
    exact hne
  rcases h.within t hne' with hs | hin
  · exact hs hzero
  · rw [Fs.missing, Finset.card_eq_zero] at hn
    exact Finset.notMem_empty t (hn ▸ Finset.mem_filter.mpr ⟨hin, hzero⟩)

/-- `file_read` of a sound file returns its bytes. -/
theorem reads_file {count offset : Word} (hm : Sound m) (hf : Live m f)
    (hreg : fileType m f ≠ FTYPE_DIR) (hoff : offset.toNat < 2 ^ 31) :
  (fileRead f count offset).Ends valid m
    (fun r m' => r = (BitVec.ofNat 32 (((contents m f).drop offset.toNat).take count.toNat).length,
        ((contents m f).drop offset.toNat).take count.toNat)
      ∧ Rewritten m m' f (contents m f)) False
  := by
  have hok := hm.fileOk hf
  have hsize := hm.size f hf
  have hnone := hm.missing hf
  have hread := ends_fileRead count hok hoff (blockCount_le hsize) (le_blockCount_mul _)
  apply hread.mono
  · rintro _ m' ⟨rfl, hall, hstep⟩
    have hwrote := hstep.wrote hok 0
    have hslot := hstep.slot_same hnone
    have hbytes : ∀ p k, p + k ≤ fileSize m f → bytesOf m' f p k = bytesOf m f p k := by
      intro p k hpk
      apply bytesOf_congr
      intro q hq hq'
      exact hwrote.bytes q (hm.solid f hf q (Nat.zero_le _) (by omega)) (.inr (Nat.zero_le _))
    constructor
    · have hout : bytesOf m' f offset.toNat (readable m f count offset)
          = ((contents m f).drop offset.toNat).take count.toNat := by
        rcases Nat.le_total offset.toNat (fileSize m f) with hle | hge
        · rw [drop_contents hle, take_bytesOf, hbytes]
          · rfl
          · rw [readable]
            omega
        · have hzero : readable m f count offset = 0 := by
            rw [readable]
            omega
          rw [hzero, List.drop_of_length_le, List.take_nil]
          · rfl
          · rw [contents, length_bytesOf]
            exact hge
      rw [← hout, length_bytesOf]
    · constructor
      case moved => exact hwrote.moved
      case contents => rw [contents, hwrote.size, hbytes _ _ (by omega)]; rfl
      case sound =>
        apply hwrote.moved.sound hm hf hreg hwrote.ok
        · rw [hwrote.size]
          exact hsize
        · intro i hi
          have hblock : dataBlock m' f i = dataBlock m f i := congrFun hslot (.data i)
          rw [hblock] at hi
          rw [hwrote.size]
          exact hm.trim f hf i hi
        · intro hind
          have hsame : ind m' f = ind m f := congrFun hslot .indirect
          rw [hsame] at hind
          rw [hwrote.size]
          exact hm.snug f hf hind
        · rw [hwrote.size]
          exact hwrote.allotted (hm.solid f hf)
  · intro hfull
    omega

/-- `file_write` within the file or at its end stores the bytes, when there is room for them. -/
theorem writes_file {buf : List Byte} {offset : Word} (hm : Sound m) (hf : Live m f)
    (hreg : fileType m f ≠ FTYPE_DIR) (hoff : offset.toNat ≤ fileSize m f)
    (hend : offset.toNat + buf.length ≤ MAXFILESIZE)
    (hroom : missing m f (blockCount (newSize m f buf offset)) ≤ avail m) :
  (fileWrite f buf offset).Ends valid m
    (fun r m' => r = BitVec.ofNat 32 buf.length ∧ Rewritten m m' f
      ((contents m f).take offset.toNat ++ buf ++ (contents m f).drop (offset.toNat + buf.length)))
    False
  := by
  have hok := hm.fileOk hf
  have hsize := hm.size f hf
  have hnew : newSize m f buf offset ≤ MAXFILESIZE := by
    rw [newSize]
    omega
  have hle : offset.toNat + buf.length ≤ blockCount (newSize m f buf offset) * BLKSIZE :=
    Nat.le_trans (Nat.le_max_right _ _) (le_blockCount_mul _)
  have hmore : blockCount (fileSize m f) ≤ blockCount (newSize m f buf offset) :=
    blockCount_mono (Nat.le_max_left _ _)
  apply (ends_fileWrite hok (blockCount_le hnew) hle).mono
  · rintro r m' ⟨rfl, hw⟩
    have hsize' : fileSize m' f = newSize m f buf offset := hw.size
    have hold : ∀ q < fileSize m f, dataBlock m' f (q / BLKSIZE) ≠ 0 := by
      intro q hq
      have hne := hm.solid f hf q (Nat.zero_le _) hq
      exact (hw.kept (.data (q / BLKSIZE)) hne).trans_ne hne
    have hbytes : ∀ p k, p + k ≤ fileSize m f → p + k ≤ offset.toNat ∨ offset.toNat + buf.length ≤ p →
        bytesOf m' f p k = bytesOf m f p k := by
      intro p k hpk hout
      apply bytesOf_congr
      intro q hq hq'
      exact hw.bytes q (hm.solid f hf q (Nat.zero_le _) (by omega)) (by omega)
    refine ⟨rfl, ?_, hw.moved, ?_⟩
    · apply hw.moved.sound hm hf hreg hw.ok
      · rw [hsize']
        exact hnew
      · intro i hi
        rw [hsize']
        rcases hw.within (.data i) hi with hs | hin
        · exact Nat.lt_of_lt_of_le (hm.trim f hf i hs) hmore
        · exact lt_of_mem_needs hin
      · intro hind
        rw [hsize']
        rcases hw.within .indirect hind with hs | hin
        · exact Nat.lt_of_lt_of_le (hm.snug f hf hs) hmore
        · exact lt_of_indirect_mem_needs hin
      · intro q _ hq
        rw [hsize', newSize] at hq
        rcases Nat.lt_or_ge q (fileSize m f) with hlt | hge
        · exact hold q hlt
        · exact hw.allotted q (by omega) (by omega)
    · -- the bytes before, the bytes written, and those after
      have hfirst : bytesOf m' f 0 offset.toNat = (contents m f).take offset.toNat := by
        rw [hbytes 0 offset.toNat (by omega) (.inl (by omega)), contents, take_bytesOf, Nat.min_eq_left hoff]
      have hlast : bytesOf m' f (offset.toNat + buf.length)
            (newSize m f buf offset - (offset.toNat + buf.length))
          = (contents m f).drop (offset.toNat + buf.length) := by
        rcases Nat.le_total (offset.toNat + buf.length) (fileSize m f) with hin | hout
        · rw [newSize, Nat.max_eq_left hin, drop_contents hin]
          exact hbytes _ _ (by omega) (.inr (Nat.le_refl _))
        · rw [newSize, Nat.max_eq_right hout, Nat.sub_self, List.drop_of_length_le]
          · rfl
          · rw [contents, length_bytesOf]
            exact hout
      have hsplit : newSize m f buf offset
          = offset.toNat + buf.length + (newSize m f buf offset - (offset.toNat + buf.length)) := by
        rw [newSize]
        omega
      rw [contents, hsize', hsplit, bytesOf_append, bytesOf_append, Nat.zero_add, Nat.zero_add, hfirst,
        hw.data, hlast]
  · intro hfull
    omega

/-- `file_set_size` shortens a file. -/
theorem shortens_file {newsize : Word} (hm : Sound m) (hf : Live m f)
    (hreg : fileType m f ≠ FTYPE_DIR) (hle : newsize.toNat ≤ fileSize m f) :
  (fileSetSize f newsize).Ends valid m
    (fun r m' => r = 0 ∧ Rewritten m m' f ((contents m f).take newsize.toNat)) False
  := by
  have hok := hm.fileOk hf
  have hsize := hm.size f hf
  apply (ends_fileSetSize hok hsize (Nat.le_trans hle hsize) (hm.trim f hf)).mono _ id
  rintro r m' ⟨rfl, hres⟩
  have hblock : ∀ q < newsize.toNat, dataBlock m' f (q / BLKSIZE) = dataBlock m f (q / BLKSIZE) := by
    intro q hq
    apply hres.kept (.data (q / BLKSIZE))
    intro _ hbeyond
    have hge : blockCount newsize.toNat ≤ q / BLKSIZE := hbeyond
    simp only [blockCount, BLKSIZE] at hge
    omega
  refine ⟨rfl, ?_, hres.moved, ?_⟩
  · apply hres.moved.sound hm hf hreg hres.ok
    · rw [hres.size]
      exact Nat.le_trans hle hsize
    · exact hres.trim (hm.trim f hf)
    · intro hind
      rw [hres.size]
      by_contra hfew
      rcases Nat.lt_or_ge newsize.toNat (fileSize m f) with hlt | hge
      · exact hind (hres.emptied hlt .indirect (Nat.le_of_not_lt hfew))
      · have hsame : ind m' f = ind m f :=
          hres.kept .indirect (fun hlt => absurd hlt (Nat.not_lt.mpr hge))
        rw [hsame] at hind
        rw [Nat.le_antisymm hle hge] at hfew
        exact hfew (hm.snug f hf hind)
    · intro q _ hq
      rw [hres.size] at hq
      rw [hblock q hq]
      exact hm.solid f hf q (Nat.zero_le _) (by omega)
  · rw [contents, hres.size, contents, take_bytesOf, Nat.min_eq_left hle]
    apply bytesOf_congr
    intro q _ hq
    rw [Nat.zero_add] at hq
    have hne := hm.solid f hf q (Nat.zero_le _) (by omega)
    have hown := owns_slot (s := .data (q / BLKSIZE)) hne
    have haddr : byteAddr m' f q = byteAddr m f q := by rw [byteAddr, byteAddr, hblock q hq]
    rw [byteAt, byteAt, haddr]
    apply hres.same
    · exact hok.owned_not_inBitmap hown (byteAddr_div m f q)
    · intro hmeta
      apply hok.off_home _ hown
      rw [← hf.placed.home hmeta.inside.1 hmeta.inside.2, byteAddr_div]
      rfl
    · intro _ heq
      rw [byteAddr_div] at heq
      cases hok.inj (.data (q / BLKSIZE)) .indirect hne heq

/-! ### Calls -/

/-- A file that is opened, and what is done with it. -/
theorem ends_withFile {op : Nat → Io Reply} {g : List Byte → Reply × List Byte} (hm : Sound m)
    (hpath : 0 ∉ path)
    (hdir : ∀ f, resolve (child m) s_root (components path) = some f → fileType m f = FTYPE_DIR →
      (op f).Ends valid m (fun r m' => r = (0, []) ∧ m' = m) False)
    (hfile : ∀ f, resolve (child m) s_root (components path) = some f → fileType m f ≠ FTYPE_DIR →
      (op f).Ends valid m (fun r m' => r = (g (contents m f)).1
        ∧ Rewritten m m' f (g (contents m f)).2) False) :
  (withFile path op).Ends valid m
    (fun r m' => Sound m' ∧ (r, volume m') = (volume m).withFile (components path) g) False
  := by
  rw [withFile, ends_bind]
  apply ends_fileOpen hm.toTidy hpath
  · intro f hf
    have hnode : volume m (components path) = some (node m f) := by
      rw [volume, hf, Option.map_some]
    by_cases hd : fileType m f = FTYPE_DIR
    · rw [Volume.withFile, hnode, node_dir.mpr hd]
      apply (hdir f hf hd).mono _ id
      rintro _ _ ⟨rfl, rfl⟩
      exact ⟨hm, rfl⟩
    · rw [Volume.withFile, hnode, node_file hd]
      apply (hfile f hf hd).mono _ id
      rintro _ m' ⟨rfl, hr⟩
      exact ⟨hr.sound, congrArg _ (hr.volume hm hf hd)⟩
  · intro hnone
    have hnode : volume m (components path) = none := by
      rw [volume, hnone, Option.map_none]
    rw [Volume.withFile, hnode]
    exact (ends_pure _).mpr ⟨hm, rfl⟩

/-- A call on the file system does what it does on the volume. -/
theorem Event.Ready.ends (hm : Sound m) (h : ev.Ready m) :
  ev.run.Ends valid m (fun r m' => Sound m' ∧ (r, volume m') = ev.step (volume m)) False
  := by
  obtain ⟨hpath, hfits, hrecord⟩ := h
  cases ev with
  | fileOpen path =>
      rw [Event.run, withFile, ends_bind]
      apply ends_fileOpen hm.toTidy hpath
      · intro f hf
        have hzero : (volume m).code [] (components path) = 0 := by
          rw [code_eq_zero]
          exact Option.isSome_iff_exists.mpr ⟨f, hf⟩
        rw [Event.step, hzero]
        exact (ends_pure _).mpr ⟨hm, rfl⟩
      · exact fun _ => (ends_pure _).mpr ⟨hm, rfl⟩
  | fileCreate path =>
      rw [Event.path] at hpath
      rw [Event.run, ends_bind]
      apply (ends_fileCreate hm hpath (fun _ => hrecord path rfl)).mono _ id
      intro r m' hlinked
      rw [ends_pure, Event.step, ← hlinked.volume]
      exact ⟨hlinked.sound, rfl⟩
  | fileRemove path =>
      rw [Event.path] at hpath hfits
      rw [Event.run, ends_bind]
      apply (ends_fileRemove hm hpath hfits).mono _ id
      rintro r m' ⟨hm', heq, -⟩
      rw [ends_pure, Event.step, ← heq]
      exact ⟨hm', rfl⟩
  | fileRead path count offset =>
      apply ends_withFile hm hpath
      · exact fun f hf hdir => absurd hdir (hfits f hf).1
      · intro f hf hreg
        exact reads_file hm (hm.nameTree.resolve_in .root hf) hreg (hfits f hf).2
  | fileWrite path buf offset =>
      apply ends_withFile hm hpath
      · exact fun f hf hdir => absurd hdir (hfits f hf).1
      · intro f hf hreg
        obtain ⟨-, hoff, hend, hroom⟩ := hfits f hf
        rw [ends_bind]
        apply (writes_file hm (hm.nameTree.resolve_in .root hf) hreg hoff hend hroom).mono _ id
        rintro r m' ⟨rfl, hr⟩
        exact (ends_pure _).mpr ⟨rfl, hr⟩
  | fileSetSize path newsize =>
      apply ends_withFile hm hpath
      · exact fun f hf hdir => absurd hdir (hfits f hf).1
      · intro f hf hreg
        rw [ends_bind]
        apply (shortens_file hm (hm.nameTree.resolve_in .root hf) hreg (hfits f hf).2).mono _ id
        rintro r m' ⟨rfl, hr⟩
        exact (ends_pure _).mpr ⟨rfl, hr⟩
  | fileFlush path =>
      have hflush : ∀ f, resolve (child m) s_root (components path) = some f →
          (Fs.fileFlush f).run valid m = .ret () m := by
        intro f hf
        have hlive := hm.nameTree.resolve_in .root hf
        exact (runs_fileFlush (hm.fileOk hlive) (hm.size f hlive)).1
      apply ends_withFile hm hpath
      · intro f hf _
        rw [ends_bind, ends_of_run (hflush f hf), ends_pure]
        exact ⟨rfl, rfl⟩
      · intro f hf _
        rw [ends_bind, ends_of_run (hflush f hf), ends_pure]
        exact ⟨rfl, hm, Moved.refl (hm.fileOk (hm.nameTree.resolve_in .root hf)), rfl⟩

/-! ### Calls on the cache -/

/-- A call that can be served, and its reply. -/
def Served (x : Event × Reply) (s s' : Cache) : Prop :=
  x.1.Ready s.view ∧ exec x.1.run s = (.ok x.2, s')

/-- What the call and its reply mean on the volume. -/
def Meant (x : Event × Reply) (V V' : Volume) : Prop :=
  x.1.step V = (x.2, V')

variable {s : Cache}

/-- A call that can be served returns. -/
theorem Event.Ready.served (hs : Coherent s) (hm : Sound s.view) (h : ev.Ready s.view) :
  ∃ r s', Served (ev, r) s s'
  := by
  rcases exec_of_ends hs (h.ends hm) with ⟨r, s', heq, -, -⟩ | ⟨-, hno⟩
  · exact ⟨r, s', h, heq⟩
  · exact hno.elim

end Jos.Fs
