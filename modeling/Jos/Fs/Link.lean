import Jos.Fs.Refusal
import Jos.Fs.Relink

/-!
# Opening, creating and removing files

`file_open` finds what the path leads to.  `file_create` links an empty file into a directory that
has a free record, and `file_remove` unlinks one.  Both change the volume at the path only.
-/

namespace Jos.Fs

open Bytes Io NameTree

variable {m m' : Memory} {E : Prop} {d e f : Nat} {p : List (List Byte)} {name path : List Byte}

/-- `file_open` finds the file, or gives the code of the path. -/
theorem ends_fileOpen {Q : Except Word Nat → Memory → Prop} (hm : Tidy m) (hpath : 0 ∉ path)
    (hfound : ∀ f, resolve (child m) s_root (components path) = some f → Q (.ok f) m)
    (hmissing : resolve (child m) s_root (components path) = none →
      Q (.error ((volume m).code [] (components path))) m) :
  (fileOpen path).Ends valid m Q E
  := by
  rw [fileOpen, ends_bind]
  apply ends_walkPath hm hpath
  rw [walk_pf]
  cases h : resolve (child m) s_root (components path) with
  | some f => exact (ends_pure _).mpr (hfound f h)
  | none =>
      dsimp only
      rw [walk_r_root]
      exact (ends_pure _).mpr (hmissing h)

/-! ### Creating a file -/

/-- `dir_alloc_file` takes the first free record, if there is one. -/
theorem ends_dirAllocFile {Q : Except Word Nat → Memory → Prop} (hm : Tidy m) (hd : Live m d)
    (hdir : fileType m d = FTYPE_DIR) (hfree : ∃ e, Record m d e ∧ m e = 0)
    (hQ : ∀ e, Record m d e → m e = 0 → Q (.ok e) m) :
  (dirAllocFile d).Ends valid m Q E
  := by
  rw [dirAllocFile, ends_bind]
  apply ends_dirBlocks hm hd hdir
  intro n hn
  rw [ends_bind]
  apply ends_searchBlocks (p := fun e => m e == 0) hm hd hdir hn
  · intro e he Q hQ
    rw [entryFree, ends_bind, ends_get8]
    refine ⟨hm.valid_record hd he (Nat.le_refl _) (Nat.lt_add_of_pos_right (by decide)), ?_⟩
    rw [f_name, ends_ite, ends_pure, ends_pure]
    constructor
    · intro hzero
      rw [if_pos (beq_iff_eq.mpr hzero)] at hQ
      exact hQ
    · intro hne
      rw [if_neg (by simpa using hne)] at hQ
      exact hQ
  · cases hc : firstRecord m d (fun e => m e == 0) with
    | none =>
        obtain ⟨e, he, hzero⟩ := hfree
        have hused := firstRecord_none hc he
        rw [beq_eq_false_iff_ne] at hused
        exact absurd hzero hused
    | some e =>
        obtain ⟨he, hzero⟩ := firstRecord_some (hm.full d hd hdir) hc
        exact (ends_pure _).mpr (hQ e he (beq_iff_eq.mp hzero))

/-- A free record that gets a name. -/
theorem relinked_name (hm : Sound m) (hd : Live m d) (hdir : fileType m d = FTYPE_DIR)
    (he : Record m d e) (hfree : m e = 0) (hname : Proper name) :
  Relinked m (writeBytes m e (name ++ [0])) e
    ∧ nameIs (writeBytes m e (name ++ [0])) e name = true
  := by
  have hshort := hname.short
  have hblank := hm.blank d e hd hdir he hfree
  have hlength : (name ++ [0]).length = name.length + 1 := List.length_append
  simp only [MAXNAMELEN] at hshort
  constructor
  · constructor
    case frame =>
      intro a ha
      apply writeBytes_of_disjoint
      simp only [FILESIZE] at ha
      omega
    case bare => exact hblank.slot
    case plain =>
      rw [hblank.fileType]
      decide
    case blank =>
      intro a ha ha'
      rw [writeBytes_of_disjoint]
      · exact hblank a ha ha'
      · simp only [f_size] at ha
        omega
  · rw [nameIs_iff]
    constructor
    · intro i hi
      rw [writeBytes_getElem m e (by omega), List.getElem_append_left hi]
    · rw [writeBytes_getElem m e (by omega), List.getElem_append_right (Nat.le_refl _)]
      simp

/-- A free record is no file. -/
theorem Record.not_live (he : Record m d e) (hfree : m e = 0) :
  ¬ Live m e
  := by
  intro hlive
  cases hlive with
  | root => exact absurd he.mod (by decide)
  | entry _ _ _ _ _ hname => exact hname hfree

/-- The volume has a new, empty file. -/
structure Created (m m' : Memory) (e : Nat) (p : List (List Byte)) (name : List Byte) : Prop where
  sound : Sound m'
  volume : Fs.volume m' = Function.update (Fs.volume m) (p ++ [name]) (some (.file []))
  resolve : ∀ q, NameTree.resolve (child m') s_root q
    = if q = p ++ [name] then some e else NameTree.resolve (child m) s_root q

theorem created_name (hm : Sound m) (hp : resolve (child m) s_root p = some d)
    (hdir : fileType m d = FTYPE_DIR) (he : Record m d e) (hfree : m e = 0) (hname : Proper name)
    (hnone : child m d name = none) :
  Created m (writeBytes m e (name ++ [0])) e p name
  := by
  have hd := hm.nameTree.resolve_in .root hp
  obtain ⟨hlink, hin⟩ := relinked_name hm hd hdir he hfree hname
  have honly : ∀ c, Proper c → nameIs (writeBytes m e (name ++ [0])) e c = true → c = name :=
    fun c hc hin' => nameIs_inj hin' hin hc.nonzero hname.nonzero
  have hsound : Sound (writeBytes m e (name ++ [0])) := by
    apply hlink.sound hm hd hdir he
    intro c hc hin'
    rw [honly c hc hin']
    exact hnone
  have hne := hlink.dir_ne hdir
  have hchild : child (writeBytes m e (name ++ [0])) d name = some e := by
    apply hsound.child_eq (hlink.live hm hd he hd hne) _ _ hname hin
    · rw [hlink.fileType hm hd he hd hne]
      exact hdir
    · exact (hlink.record_iff hm hd he hd hdir).mpr he
  have hold : child m d name = some e ∨ child m d name = none ∧ ¬ Live m e :=
    .inr ⟨hnone, he.not_live hfree⟩
  have hr : ∀ e', some e = some e' → e' = e := fun e' h => (Option.some.inj h).symm
  have hother : ∀ c, c ≠ name → Proper c →
      nameIs m e c = false ∧ nameIs (writeBytes m e (name ++ [0])) e c = false := by
    intro c hcn hc
    constructor
    · exact Bool.eq_false_iff.mpr (fun hin' => hc.used hin' hfree)
    · exact Bool.eq_false_iff.mpr (fun hin' => hcn (honly c hc hin'))
  refine ⟨hsound, ?_, hlink.resolve hm hd hdir he hp hold hchild hr hother⟩
  rw [hlink.volume hm hd hdir he hp hold hchild hr hother, Option.map_some, node,
    hlink.blank.fileType, if_neg (by decide), hlink.blank.fileSize]
  rfl

/-- `file_create` in a directory that has a free record. -/
theorem ends_createIn (hm : Sound m) (hp : resolve (child m) s_root p = some d)
    (hdir : fileType m d = FTYPE_DIR) (hfree : ∃ e, Record m d e ∧ m e = 0) (hname : Proper name)
    (hnone : child m d name = none) :
  (createIn d name).Ends valid m (fun r m' => ∃ e, r = .ok e ∧ Created m m' e p name) E
  := by
  have hd := hm.nameTree.resolve_in .root hp
  have hok := hm.fileOk hd
  rw [createIn, ends_bind]
  apply ends_dirAllocFile hm.toTidy hd hdir hfree
  intro e he hzero
  dsimp only
  obtain ⟨hlink, -⟩ := relinked_name hm hd hdir he hzero hname
  have hcreated := created_name hm hp hdir he hzero hname hnone
  have hlength : (name ++ [0]).length ≤ FILESIZE := by
    have hshort := hname.short
    rw [List.length_append, List.length_singleton]
    simp only [MAXNAMELEN, FILESIZE] at hshort ⊢
    omega
  rw [ends_bind, f_name]
  apply ends_setBytes
  · intro m₁ hm₁ i hi
    obtain ⟨hown, -⟩ := he.block (a := e + i) (Nat.le_add_right _ _) (by omega)
    apply valid_of_block hok.bitmap (hok.safe _ hown) (hok.lt _ hown) (hok.inUse _ hown) _ rfl
    intro a ha
    apply hm₁
    by_contra hin
    apply ha
    have hmod := he.mod
    simp only [FILESIZE, BLKSIZE] at hmod hlength ⊢
    omega
  · have hne := hlink.dir_ne hdir
    have hlive := hlink.live hm hd he hd hne
    rw [ends_bind, ends_of_run (runs_fileFlush (hcreated.sound.fileOk hlive)
      (hcreated.sound.size d hlive)).1, ends_pure]
    exact ⟨e, rfl, hcreated⟩

/-- The code of a path that is found is zero. -/
theorem code_eq_zero {cs : List (List Byte)} :
  (volume m).code [] cs = 0 ↔ (resolve (child m) s_root cs).isSome = true
  := by
  rw [← walk_r_root (o := none)]
  exact walk_r_found

/-- A new file has a parent where its other names lead to a directory. -/
theorem parent_isSome {cs : List (List Byte)} :
  (parent m s_root cs).isSome = true ↔ volume m cs.dropLast = some .dir
  := by
  rw [parent, volume]
  cases resolve (child m) s_root cs.dropLast with
  | none => simp
  | some d => simp [node_dir]

/-- A file is found at its path, or a code that is not zero is returned, with the volume that is
expected; paths that led to a file still do. -/
structure Linked (m : Memory) (cs : List (List Byte)) (x : Word × Volume) (r : Except Word Nat)
    (m' : Memory) : Prop where
  sound : Sound m'
  volume : (status r, Fs.volume m') = x
  found : ∀ e, r = .ok e → resolve (child m') s_root cs = some e
  failed : ∀ c, r = .error c → c ≠ 0
  kept : ∀ q g, resolve (child m) s_root q = some g → resolve (child m') s_root q = some g

theorem Linked.refused {r : Word} {cs : List (List Byte)} {x : Word × Volume} (hm : Sound m)
    (hr : r ≠ 0) (h : (r, Fs.volume m) = x) :
  Linked m cs x (.error r) m
  := by
  refine ⟨hm, h, nofun, ?_, fun _ _ => id⟩
  rintro _ ⟨⟩
  exact hr

/-- A file that was created is found at its path. -/
theorem Created.linked {cs : List (List Byte)} (h : Created m m' e p name) (hcs : cs = p ++ [name])
    (hnone : NameTree.resolve (child m) s_root cs = none) :
  Linked m cs (0, Function.update (Fs.volume m) cs (some (.file []))) (.ok e) m'
  := by
  subst hcs
  constructor
  case sound => exact h.sound
  case volume =>
    rw [h.volume]
    rfl
  case found =>
    rintro _ ⟨⟩
    rw [h.resolve, if_pos rfl]
  case failed =>
    intro c heq
    cases heq
  case kept =>
    intro q g hq
    rw [h.resolve, if_neg]
    · exact hq
    · rintro rfl
      rw [hnone] at hq
      cases hq

/-- `file_open` finds what the volume has. -/
theorem fileOpen_linked (hm : Sound m) (hpath : 0 ∉ path) :
  (fileOpen path).Ends valid m
    (Linked m (components path) ((volume m).code [] (components path), volume m)) E
  := by
  apply ends_fileOpen hm.toTidy hpath
  · intro f hf
    have hzero : (volume m).code [] (components path) = 0 := by
      rw [code_eq_zero, hf]
      rfl
    refine ⟨hm, by rw [hzero]; rfl, ?_, nofun, fun _ _ => id⟩
    rintro _ ⟨⟩
    exact hf
  · intro hnone
    apply Linked.refused hm _ rfl
    rw [Ne, code_eq_zero, hnone]
    decide

/-- `file_create` creates what the volume lacks. -/
theorem ends_fileCreate (hm : Sound m) (hpath : 0 ∉ path)
    (hfree : resolve (child m) s_root (components path) = none →
      ∀ d, parent m s_root (components path) = some d → ∃ e, Record m d e ∧ m e = 0) :
  (fileCreate path).Ends valid m (Linked m (components path) ((volume m).create (components path))) E
  := by
  have hcode : (walk m (components path) none s_root).r = (volume m).code [] (components path) :=
    walk_r_root
  have hzero : (walk m (components path) none s_root).r = 0
      ↔ (resolve (child m) s_root (components path)).isSome = true := walk_r_found
  rw [fileCreate, ends_bind]
  apply ends_walkPath hm.toTidy hpath
  rw [ends_ite]
  constructor
  · intro hr
    rw [ends_pure]
    apply Linked.refused hm (by decide)
    rw [Volume.create, ← hcode, if_pos hr]
  · intro hr
    have hcreate : (volume m).create (components path) = if
        (walk m (components path) none s_root).r = -E_NOT_FOUND
          ∧ volume m (components path).dropLast = some .dir then
        (0, Function.update (volume m) (components path) (some (.file [])))
        else ((walk m (components path) none s_root).r, volume m) := by
      rw [Volume.create, ← hcode, if_neg hr]
    have hcode' := hr
    rw [hzero, Option.not_isSome_iff_eq_none] at hr
    obtain ⟨hpdir, hlast⟩ := walk_missing (o := none) hr
    have hparent : (parent m s_root (components path)).isSome = true
        ↔ volume m (components path).dropLast = some .dir := parent_isSome
    cases hpd : (walk m (components path) none s_root).pdir with
    | none =>
        rw [hpd] at hpdir
        rw [ends_pure]
        apply Linked.refused hm hcode'
        rw [hcreate, if_neg]
        rintro ⟨hnot, hdir⟩
        rw [if_pos hnot] at hpdir
        rw [← hpdir] at hparent
        exact absurd (hparent.mpr hdir) (by decide)
    | some d =>
        have hnot : (walk m (components path) none s_root).r = -E_NOT_FOUND := by
          by_contra hne
          rw [hpd, if_neg hne] at hpdir
          cases hpdir
        rw [hpd, if_pos hnot] at hpdir
        obtain ⟨hsplit, hshort⟩ := hlast (by rw [hpd]; rfl)
        rw [if_pos ⟨hnot, hparent.mp (by rw [← hpdir]; rfl)⟩] at hcreate
        dsimp only
        rw [if_neg (not_not.mpr hnot)]
        have hd := hpdir.symm
        rw [parent, Option.filter_eq_some_iff] at hd
        have hname : Proper (walk m (components path) none s_root).lastelem := by
          have hin : (walk m (components path) none s_root).lastelem ∈ components path := by
            have hmem := List.mem_append_right (components path).dropLast
              (List.mem_singleton_self (walk m (components path) none s_root).lastelem)
            rw [← hsplit] at hmem
            exact hmem
          obtain ⟨hne, hbytes⟩ := mem_components hin
          exact ⟨hne, hshort, fun hbyte => hpath (hbytes 0 hbyte)⟩
        have hrecord := hfree hr d hpdir.symm
        have hnone : child m d (walk m (components path) none s_root).lastelem = none := by
          have hlast := hr
          rw [hsplit, resolve_concat, hd.1, Option.bind_some] at hlast
          exact hlast
        apply (ends_createIn hm hd.1 (of_decide_eq_true hd.2) hrecord hname hnone).mono _ id
        rintro r m' ⟨e, rfl, hcreated⟩
        rw [hcreate]
        exact hcreated.linked hsplit hr

/-! ### Removing a file -/

/-- An empty file is blank. -/
theorem blank_of_zero (htype : fileType m f = FTYPE_REG) (hsize : fileSize m f = 0)
    (hslot : ∀ s, slot m f s = 0) :
  Blank m f
  := by
  have hbyte : ∀ a i, (read32 m a).toNat = 0 → i < 4 → m (a + i) = 0 := by
    intro a i ha hi
    have hword : read32 m a = 0 := BitVec.eq_of_toNat_eq ha
    rw [← byteOf_read32 m a hi, hword]
    exact BitVec.extractLsb'_zero
  intro a ha ha'
  have hcases : a < f_size f + 4 ∨ f_type f ≤ a ∧ a < f_type f + 4 ∨ f_indirect f ≤ a
      ∨ ∃ i < NDIRECT, f_direct f i ≤ a ∧ a < f_direct f i + 4 := by
    simp only [f_size, f_type, f_direct, f_indirect, NDIRECT] at ha ha' ⊢
    by_cases hlow : a < f + 136
    · omega
    · by_cases hhigh : f + 176 ≤ a
      · omega
      · refine .inr (.inr (.inr ⟨(a - (f + 136)) / 4, ?_, ?_, ?_⟩))
        · omega
        · omega
        · omega
  have hat : ∀ b, (read32 m b).toNat = 0 → b ≤ a → a < b + 4 → m a = 0 := by
    intro b hb hle hlt
    have hzero := hbyte b (a - b) hb (by omega)
    rw [Nat.add_sub_cancel' hle] at hzero
    exact hzero
  rcases hcases with hlt | ⟨hle, hlt⟩ | hle | ⟨i, hi, hle, hlt⟩
  · exact hat _ hsize ha hlt
  · apply hat _ _ hle hlt
    have hreg : read32 m (f_type f) = FTYPE_REG := htype
    rw [hreg]
    rfl
  · exact hat _ (hslot .indirect) hle ha'
  · apply hat _ _ hle hlt
    have hdata : dataBlock m f i = 0 := hslot (.data i)
    rw [dataBlock, if_pos hi] at hdata
    exact hdata

/-- A file whose slots were emptied gets the size zero. -/
theorem emptied_setSize (hm : Sound m) (hf : Live m f) (htype : fileType m f = FTYPE_REG)
    (hok : FileOk m' f) (h : Shrunk m m' f (Beyond (blockCount 0))) :
  Sound (setSize m' f 0) ∧ Moved m (setSize m' f 0) f ∧ ∀ s, slot (setSize m' f 0) f s = 0
  := by
  have hreg : fileType m f ≠ FTYPE_DIR := by
    rw [htype]
    decide
  obtain ⟨hok', hmoved', hsize⟩ := setSize_spec hok 0
  have hmoved := (h.moved (hm.fileOk hf)).trans hmoved'
  have hslot : ∀ s, slot (setSize m' f 0) f s = 0 := by
    intro s
    rw [slot_setSize hok]
    apply h.emptied
    cases s with
    | data i => exact Nat.zero_le _
    | indirect => exact Nat.zero_le _
  have hzero : fileSize (setSize m' f 0) f = 0 := hsize
  refine ⟨hmoved.sound hm hf hreg hok' ?_ ?_ ?_ ?_, hmoved, hslot⟩
  · rw [hzero]
    exact Nat.zero_le _
  · exact fun i hi => absurd (hslot (.data i)) hi
  · exact fun hind => absurd (hslot .indirect) hind
  · intro q _ hq
    rw [hzero] at hq
    exact absurd hq (Nat.not_lt_zero q)

/-- An empty file loses its name. -/
theorem relinked_free (htype : fileType m e = FTYPE_REG) (hsize : fileSize m e = 0)
    (hslot : ∀ s, slot m e s = 0) :
  Relinked m (write8 m e 0) e
  := by
  have hne : ∀ a, a ≠ e → write8 m e 0 a = m a := fun a ha => if_neg ha
  constructor
  case frame =>
    intro a ha
    apply hne
    rintro rfl
    simp only [FILESIZE] at ha
    omega
  case bare => exact hslot
  case plain =>
    rw [htype]
    decide
  case blank =>
    intro a ha ha'
    rw [hne a]
    · exact blank_of_zero htype hsize hslot a ha ha'
    · rintro rfl
      simp only [f_size] at ha
      omega

/-- The volume lacks a file. -/
structure Removed (m m' : Memory) (cs : List (List Byte)) : Prop where
  sound : Sound m'
  volume : Fs.volume m' = Function.update (Fs.volume m) cs none
  kept : ∀ q, q ≠ cs → resolve (child m') s_root q = resolve (child m) s_root q

/-- An empty file is unlinked. -/
theorem unlinked_name (hm : Sound m) (hp : resolve (child m) s_root p = some d)
    (hc : child m d name = some f) (htype : fileType m f = FTYPE_REG) (hsize : fileSize m f = 0)
    (hslot : ∀ s, slot m f s = 0) :
  Removed m (write8 m f 0) (p ++ [name])
  := by
  have hd := hm.nameTree.resolve_in .root hp
  obtain ⟨hdir, hname, he, hin⟩ := child_some hm.toTidy hd hc
  have hlink := relinked_free htype hsize hslot
  have hgone : ∀ c, Proper c → nameIs (write8 m f 0) f c = false := by
    intro c hc
    rw [Bool.eq_false_iff]
    exact fun hin => hc.used hin (if_pos rfl)
  have hunlinked : Sound (write8 m f 0) := by
    apply hlink.sound hm hd hdir he
    intro c hc hin
    rw [hgone c hc] at hin
    cases hin
  have hne := hlink.dir_ne hdir
  have hlive := hlink.live hm hd he hd hne
  have hnone : child (write8 m f 0) d name = none := by
    rw [Option.eq_none_iff_forall_not_mem]
    intro e hce
    obtain ⟨hdire, -, hre, hine⟩ := child_some hunlinked.toTidy hlive hce
    rw [hlink.record_iff hm hd he hd hdir] at hre
    rcases Classical.em (e = f) with rfl | hef
    · rw [hgone name hname] at hine
      cases hine
    · rw [hlink.name_same he hre hef hname] at hine
      exact hef (hm.distinct d hd hdir e f name hre he hname hine hin)
  have hr : ∀ e, none = some e → e = f := fun e h => by cases h
  have hother : ∀ c, c ≠ name → Proper c → nameIs m f c = false ∧ nameIs (write8 m f 0) f c = false := by
    intro c hcn hc
    refine ⟨?_, hgone c hc⟩
    rw [Bool.eq_false_iff]
    exact fun hin' => hcn (nameIs_inj hin' hin hc.nonzero hname.nonzero)
  refine ⟨hunlinked, ?_, ?_⟩
  · rw [hlink.volume hm hd hdir he hp (.inl hc) hnone hr hother, Option.map_none]
  · intro q hq
    rw [hlink.resolve hm hd hdir he hp (.inl hc) hnone hr hother, if_neg hq]

/-- A file is unlinked after its blocks were given back. -/
theorem removed_name (hm : Sound m) (hp : resolve (child m) s_root p = some d)
    (hc : child m d name = some f) (htype : fileType m f = FTYPE_REG) (hok : FileOk m' f)
    (h : Shrunk m m' f (Beyond (blockCount 0))) :
  Removed m (write8 (setSize m' f 0) f 0) (p ++ [name])
  := by
  have hd := hm.nameTree.resolve_in .root hp
  have hf := hm.nameTree.closed hd hc
  have hreg : fileType m f ≠ FTYPE_DIR := by
    rw [htype]
    decide
  have hpath : resolve (child m) s_root (p ++ [name]) = some f := by
    rw [resolve_concat, hp, Option.bind_some, hc]
  obtain ⟨hsound, hmoved, hslot⟩ := emptied_setSize hm hf htype hok h
  have hp' : resolve (child (setSize m' f 0)) s_root p = some d := by
    rw [hmoved.resolve hm hf hreg]
    exact hp
  have hc' : child (setSize m' f 0) d name = some f := by
    rw [hmoved.child hm hf hreg hd]
    exact hc
  have htype' : fileType (setSize m' f 0) f = FTYPE_REG := by
    rw [hmoved.fileType hm.toOwned hf hreg hf]
    exact htype
  have hremoved := unlinked_name hsound hp' hc' htype' (setSize_spec hok 0).2.2 hslot
  refine ⟨hremoved.sound, ?_, ?_⟩
  · rw [hremoved.volume, hmoved.volume hm hf hreg hpath, Function.update_idem]
  · intro q hq
    rw [hremoved.kept q hq]
    exact hmoved.resolve hm hf hreg q

/-- What can be accessed is decided by the super block and the bitmap. -/
theorem SameBitmap.valid (h : SameBitmap m m') (a : Nat) :
  Fs.valid m' a = Fs.valid m a
  := by
  simp only [Fs.valid, inUse, h.nblocks, h.isFree]

/-- A name lies in a block of a directory. -/
theorem sameBitmap_write8 {v : Byte} (hok : FileOk m f) (hmod : f % FILESIZE = 0) :
  SameBitmap m (write8 m f v)
  := by
  constructor
  · intro a ha ha'
    apply if_neg
    rintro rfl
    simp only [s_nblocks, super, BLKSIZE, FILESIZE] at ha ha' hmod
    omega
  · intro a ha
    apply if_neg
    rintro rfl
    exact hok.not_inBitmap (Nat.le_refl _) (Nat.lt_add_of_pos_right (by decide)) ha

/-- `file_remove` of a path that leads to a file. -/
theorem ends_fileRemove (hm : Sound m) (hpath : 0 ∉ path)
    (hreg : ∀ f, resolve (child m) s_root (components path) = some f → fileType m f = FTYPE_REG) :
  (fileRemove path).Ends valid m
    (fun r m' => Sound m' ∧ (r, volume m') = (volume m).remove (components path)
      ∧ ∀ q, q ≠ components path → resolve (child m') s_root q = resolve (child m) s_root q) E
  := by
  have hcode : (walk m (components path) none s_root).r = (volume m).code [] (components path) :=
    walk_r_root
  rw [fileRemove, ends_bind]
  apply ends_walkPath hm.toTidy hpath
  rw [walk_pf, Volume.remove, hcode]
  cases hr : resolve (child m) s_root (components path) with
  | none =>
      have hne : (volume m).code [] (components path) ≠ 0 := by
        rw [Ne, code_eq_zero, hr]
        decide
      rw [if_neg hne]
      exact (ends_pure _).mpr ⟨hm, rfl, fun _ _ => rfl⟩
  | some f =>
      have htype := hreg f hr
      have hf := hm.nameTree.resolve_in .root hr
      have hzero : (volume m).code [] (components path) = 0 := by
        rw [code_eq_zero, hr]
        rfl
      have hnil : components path ≠ [] := by
        intro hnil
        rw [hnil, resolve_nil] at hr
        obtain rfl := Option.some.inj hr
        rw [hm.root_dir] at htype
        exact absurd htype (by decide)
      obtain ⟨p, name, hsplit⟩ : ∃ p name, components path = p ++ [name] :=
        (eq_nil_or_concat (components path)).resolve_left hnil
      rw [hsplit, resolve_concat, Option.bind_eq_some_iff] at hr
      obtain ⟨d, hp, hc⟩ := hr
      rw [if_pos hzero]
      dsimp only
      rw [ends_bind]
      apply (ends_fileTruncateBlocks (hm.fileOk hf) (hm.size f hf) (Nat.zero_le _)
        (hm.trim f hf)).mono _ id
      rintro _ m' ⟨hok, hshrunk⟩
      have hremoved := removed_name hm hp hc htype hok hshrunk
      have hswap : write32 (write8 m' (f_name f) 0) (f_size f) 0 = write8 (setSize m' f 0) f 0 := by
        funext a
        simp only [setSize, write32, write8, f_name, f_size]
        grind
      have hsame : SameBitmap m' (write8 m' f 0) :=
        sameBitmap_write8 hok (child_some hm.toTidy (hm.nameTree.resolve_in .root hp) hc).2.2.1.mod
      have hsame' : SameBitmap (setSize m' f 0) (write8 (setSize m' f 0) f 0) :=
        sameBitmap_write8 (setSize_spec hok 0).1
          (child_some hm.toTidy (hm.nameTree.resolve_in .root hp) hc).2.2.1.mod
      rw [ends_bind, ends_set8, ends_bind, ends_set32, ends_bind, flushBlock, ends_sync, ends_pure,
        hswap, f_name, hsame.okWord, hsame'.valid, hsplit]
      exact ⟨hok.valid_self, hok.okWord_f_size, (setSize_spec hok 0).1.valid_self, hremoved.sound,
        congrArg _ hremoved.volume, hremoved.kept⟩

end Jos.Fs
