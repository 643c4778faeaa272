import Jos.Fs.Volume

/-!
# Changes of one record

Linking and unlinking a file change one record of a directory, which has no blocks before and
after.  Such a change keeps all other files and the other names, keeps a sound file system sound,
and changes the volume at the path of the record only.
-/

namespace Jos.Fs

open Bytes Io NameTree

variable {m m' : Memory} {d e f g b : Nat} {p : List (List Byte)} {name : List Byte}

/-- Records do not overlap. -/
theorem Record.apart {d' e' a : Nat} (h : Record m d e) (h' : Record m d' e') (hne : e' ≠ e)
    (ha : e' ≤ a ∧ a < e' + FILESIZE) :
  a < e ∨ e + FILESIZE ≤ a
  := by
  have hmod := h.mod
  have hmod' := h'.mod
  simp only [FILESIZE] at *
  omega

/-- The super block and the bitmap do not lie in a record. -/
theorem Record.sameBitmap (he : Record m d e) (hm : Owned m) (hd : Live m d)
    (hframe : ∀ a, a < e ∨ e + FILESIZE ≤ a → m' a = m a) :
  SameBitmap m m'
  := by
  have hok := hm.fileOk hd
  constructor
  · intro a ha ha'
    apply hframe
    by_contra hin
    exact (hok.super_off ha ha').2 _ (he.block (by omega) (by omega)).1 rfl
  · intro a ha
    apply hframe
    by_contra hin
    exact hok.owned_not_inBitmap (he.block (by omega) (by omega)).1 rfl ha

/-- Only the record `e` is changed, which is a file without blocks before, and empty after. -/
structure Relinked (m m' : Memory) (e : Nat) : Prop where
  frame : ∀ a, a < e ∨ e + FILESIZE ≤ a → m' a = m a
  bare : ∀ s, slot m e s = 0
  plain : fileType m e ≠ FTYPE_DIR
  blank : Blank m' e

section Relinked

variable (h : Relinked m m' e) (hm : Sound m) (hd : Live m d)
  (hdir : Fs.fileType m d = FTYPE_DIR) (he : Record m d e)

include h

theorem Relinked.dir_ne (hgdir : fileType m g = FTYPE_DIR) :
  g ≠ e
  := by
  rintro rfl
  exact h.plain hgdir

theorem Relinked.not_owns :
  ¬ Owns m e b ∧ ¬ Owns m' e b
  := by
  constructor
  · rintro ⟨hne, s, hs⟩
    exact hne (hs.symm.trans (h.bare s))
  · rintro ⟨hne, s, hs⟩
    exact hne (hs.symm.trans (h.blank.slot s))

/-- The other records are the same. -/
theorem Relinked.record_same {d' e' a : Nat} (he : Record m d e) (he' : Record m d' e')
    (hne : e' ≠ e) (ha : e' ≤ a) (ha' : a < e' + FILESIZE) :
  m' a = m a
  := h.frame a (he.apart he' hne ⟨ha, ha'⟩)

theorem Relinked.first_same {d' e' : Nat} (he : Record m d e) (he' : Record m d' e')
    (hne : e' ≠ e) :
  m' e' = m e'
  := h.record_same he he' hne (Nat.le_refl _) (Nat.lt_add_of_pos_right (by decide))

theorem Relinked.name_same {d' e' : Nat} (he : Record m d e) (he' : Record m d' e') (hne : e' ≠ e)
    (hname : Proper name) :
  nameIs m' e' name = nameIs m e' name
  := by
  apply nameIs_congr
  intro i hi
  have hshort := hname.short
  apply h.record_same he he' hne (Nat.le_add_right _ _)
  simp only [MAXNAMELEN, FILESIZE] at hshort ⊢
  omega

include hm hd he

/-- The structures of the other files are the same. -/
theorem Relinked.struct_same (hg : Live m g) (hne : g ≠ e) {a : Nat} (ha : g ≤ a)
    (ha' : a < g + FILESIZE) :
  m' a = m a
  := by
  apply h.frame
  by_contra hin
  exact hm.record_off hg hd he (fun heq => hne heq.symm) (by omega) (by omega) ⟨ha, ha'⟩

/-- The blocks of the other files are the same. -/
theorem Relinked.block_same (hg : Live m g) (hne : g ≠ d) (hb : Owns m g b) {a : Nat}
    (ha : a / BLKSIZE = b) :
  m' a = m a
  := by
  apply h.frame
  by_contra hin
  obtain ⟨hown, -⟩ := he.block (a := a) (by omega) (by omega)
  rw [ha] at hown
  exact hne (hm.owner hg hd hb hown)

/-- The indirect blocks are the same. -/
theorem Relinked.ind_same (hg : Live m g) (hind : ind m g ≠ 0) {a : Nat} (ha : a / BLKSIZE = ind m g) :
  m' a = m a
  := by
  apply h.frame
  by_contra hin
  obtain ⟨hown, i, hi⟩ := he.block (a := a) (by omega) (by omega)
  have heq : slot m d (.data i) = slot m g .indirect := hi.trans ha
  have hne : slot m d (.data i) ≠ 0 := by
    rw [heq]
    exact hind
  cases (hm.unique d g _ _ hd hg hne heq).2

theorem Relinked.slot_same (hg : Live m g) (hne : g ≠ e) :
  slot m' g = slot m g
  := by
  apply slot_congr
  · intro a ha
    have hin := InMeta.inside (f := g) (.inr ha)
    exact h.struct_same hm hd he hg hne hin.1 hin.2
  · exact fun hind a ha => h.ind_same hm hd he hg hind ha

theorem Relinked.owns_iff (hg : Live m g) (hne : g ≠ e) :
  Owns m' g b ↔ Owns m g b
  := by
  rw [Owns, Owns, h.slot_same hm hd he hg hne]

theorem Relinked.fileSize (hg : Live m g) (hne : g ≠ e) :
  Fs.fileSize m' g = Fs.fileSize m g
  := by
  apply fileSize_congr
  intro a ha ha'
  obtain ⟨hin, hin', -⟩ := f_size_inside ha ha'
  exact h.struct_same hm hd he hg hne hin hin'

theorem Relinked.fileType (hg : Live m g) (hne : g ≠ e) :
  Fs.fileType m' g = Fs.fileType m g
  := by
  rw [Fs.fileType, Fs.fileType]
  apply read32_congr
  intro x hx hx'
  apply h.struct_same hm hd he hg hne
  · simp only [f_type] at hx
    omega
  · simp only [f_type, FILESIZE] at hx' ⊢
    omega

theorem Relinked.sameBitmap :
  SameBitmap m m'
  := he.sameBitmap hm.toOwned hd h.frame

theorem Relinked.record_iff {d' e' : Nat} (hd' : Live m d') (hdir' : Fs.fileType m d' = FTYPE_DIR) :
  Record m' d' e' ↔ Record m d' e'
  := by
  have hne := h.dir_ne hdir'
  have hslot := h.slot_same hm hd he hd' hne
  have hblock : ∀ i, dataBlock m' d' i = dataBlock m d' i := fun i => congrFun hslot (.data i)
  simp only [Record, h.fileSize hm hd he hd' hne, hblock, entryAddr]

theorem Relinked.live (hg : Live m g) (hne : g ≠ e) :
  Live m' g
  := by
  induction hg with
  | root => exact .root
  | @entry d' i j hd' hdir' hi hblock hj hname ih =>
      have he' : Record m d' (entryAddr m d' i j) := ⟨i, j, hi, hblock, hj, rfl⟩
      have hne' := h.dir_ne hdir'
      apply ((h.record_iff hm hd he hd' hdir').mpr he').live (ih hne')
      · rw [h.fileType hm hd he hd' hne']
        exact hdir'
      · rw [h.first_same he he' hne]
        exact hname

include hdir

/-- The other files are the same, and the record is a file if it has a name. -/
theorem Relinked.live_iff :
  Live m' g ↔ (Live m g ∧ g ≠ e) ∨ (g = e ∧ m' e ≠ 0)
  := by
  constructor
  · intro hg
    induction hg with
    | root =>
        refine .inl ⟨.root, ?_⟩
        rintro rfl
        exact absurd he.mod (by decide)
    | @entry d' i j hd' hdir' hi hblock hj hname ih =>
        by_cases heq : entryAddr m' d' i j = e
        · refine .inr ⟨heq, ?_⟩
          rw [heq] at hname
          exact hname
        · rcases ih with ⟨hlive, hne⟩ | ⟨rfl, -⟩
          · rw [h.fileType hm hd he hlive hne] at hdir'
            have he' := (h.record_iff hm hd he hlive hdir').mp ⟨i, j, hi, hblock, hj, rfl⟩
            rw [h.first_same he he' heq] at hname
            exact .inl ⟨he'.live hlive hdir' hname, heq⟩
          · rw [h.blank.fileType] at hdir'
            exact absurd hdir' (by decide)
  · rintro (⟨hg, hne⟩ | ⟨rfl, hname⟩)
    · exact h.live hm hd he hg hne
    · have hne := h.dir_ne hdir
      apply ((h.record_iff hm hd he hd hdir).mpr he).live (h.live hm hd he hd hne) _ hname
      rw [h.fileType hm hd he hd hne]
      exact hdir

/-- A directory is one of the other files. -/
theorem Relinked.dir_iff :
  Live m' g ∧ Fs.fileType m' g = FTYPE_DIR ↔ Live m g ∧ Fs.fileType m g = FTYPE_DIR
  := by
  rw [h.live_iff hm hd hdir he]
  constructor
  · rintro ⟨⟨hg, hne⟩ | ⟨rfl, -⟩, hgdir⟩
    · rw [h.fileType hm hd he hg hne] at hgdir
      exact ⟨hg, hgdir⟩
    · rw [h.blank.fileType] at hgdir
      exact absurd hgdir (by decide)
  · rintro ⟨hg, hgdir⟩
    have hne := h.dir_ne hgdir
    rw [h.fileType hm hd he hg hne]
    exact ⟨.inl ⟨hg, hne⟩, hgdir⟩

/-- Every block still belongs to one slot of one file. -/
theorem Relinked.owned :
  Owned m'
  := by
  have hlive : ∀ g b, Live m' g → Owns m' g b → Live m g ∧ g ≠ e ∧ Owns m g b := by
    intro g b hg hb
    rcases (h.live_iff hm hd hdir he).mp hg with ⟨hg, hne⟩ | ⟨rfl, -⟩
    · exact ⟨hg, hne, (h.owns_iff hm hd he hg hne).mp hb⟩
    · exact (h.not_owns.2 hb).elim
  have hsame := h.sameBitmap hm hd he
  constructor
  case bitmap => exact hsame.bitmapOk hm.bitmap
  case lt =>
    intro g hg b hb
    obtain ⟨hg, -, hb⟩ := hlive g b hg hb
    rw [hsame.nblocks]
    exact hm.lt g hg b hb
  case inUse =>
    intro g hg b hb
    obtain ⟨hg, -, hb⟩ := hlive g b hg hb
    rw [hsame.isFree]
    exact hm.inUse g hg b hb
  case safe =>
    intro g hg b hb
    obtain ⟨hg, -, hb⟩ := hlive g b hg hb
    rw [Reserved.congr hsame.nblocks]
    exact hm.safe g hg b hb
  case unique =>
    intro g g' s t hg hg' hs heq
    obtain ⟨hg, hne, -⟩ := hlive g _ hg (owns_slot hs)
    obtain ⟨hg', hne', -⟩ := hlive g' _ hg' (owns_slot (s := t) (by rw [← heq]; exact hs))
    rw [h.slot_same hm hd he hg hne] at hs heq
    rw [h.slot_same hm hd he hg' hne'] at heq
    exact hm.unique g g' s t hg hg' hs heq
  case size =>
    intro g hg
    rcases (h.live_iff hm hd hdir he).mp hg with ⟨hg, hne⟩ | ⟨rfl, -⟩
    · rw [h.fileSize hm hd he hg hne]
      exact hm.size g hg
    · rw [h.blank.fileSize]
      exact Nat.zero_le _

/-- The file system is still tidy. -/
theorem Relinked.tidy :
  Tidy m'
  := by
  refine ⟨h.owned hm hd hdir he, ?_, ?_, ?_⟩
  · intro g hg i hi
    rcases (h.live_iff hm hd hdir he).mp hg with ⟨hg, hne⟩ | ⟨rfl, -⟩
    · have hblock : dataBlock m' g i = dataBlock m g i :=
        congrFun (h.slot_same hm hd he hg hne) (.data i)
      rw [hblock] at hi
      rw [h.fileSize hm hd he hg hne]
      exact hm.trim g hg i hi
    · exact absurd (h.blank.slot (.data i)) hi
  · intro g hg hgdir
    obtain ⟨hg, hgdir⟩ := (h.dir_iff hm hd hdir he).mp ⟨hg, hgdir⟩
    rw [h.fileSize hm hd he hg (h.dir_ne hgdir)]
    exact hm.whole g hg hgdir
  · intro g hg hgdir i hi
    obtain ⟨hg, hgdir⟩ := (h.dir_iff hm hd hdir he).mp ⟨hg, hgdir⟩
    have hblock : dataBlock m' g i = dataBlock m g i :=
      congrFun (h.slot_same hm hd he hg (h.dir_ne hgdir)) (.data i)
    rw [h.fileSize hm hd he hg (h.dir_ne hgdir)] at hi
    rw [hblock]
    exact hm.full g hg hgdir i hi

/-- The file system is still neat. -/
theorem Relinked.neat :
  Neat m'
  := by
  refine ⟨h.tidy hm hd hdir he, ?_, ?_⟩
  · intro g hg hind
    rcases (h.live_iff hm hd hdir he).mp hg with ⟨hg, hne⟩ | ⟨rfl, -⟩
    · have hsame : ind m' g = ind m g := congrFun (h.slot_same hm hd he hg hne) .indirect
      rw [hsame] at hind
      rw [h.fileSize hm hd he hg hne]
      exact hm.snug g hg hind
    · exact absurd (h.blank.slot .indirect) hind
  · intro d' e' hd' hdir' he' hfree
    obtain ⟨hd', hdir'⟩ := (h.dir_iff hm hd hdir he).mp ⟨hd', hdir'⟩
    rw [h.record_iff hm hd he hd' hdir'] at he'
    rcases Classical.em (e' = e) with rfl | hne
    · exact h.blank
    · rw [h.first_same he he' hne] at hfree
      have hblank := hm.blank d' e' hd' hdir' he' hfree
      intro a ha ha'
      rw [h.record_same he he' hne]
      · exact hblank a ha ha'
      · simp only [f_size] at ha
        omega
      · simp only [f_indirect, FILESIZE] at ha' ⊢
        omega

/-- The file system is still sound, when the name is new. -/
theorem Relinked.sound (hfresh : ∀ name, Proper name → nameIs m' e name = true →
    child m d name = none) :
  Sound m'
  := by
  refine ⟨h.neat hm hd hdir he, ?_, ?_, ?_, ?_⟩
  · rw [h.fileType hm hd he .root (h.dir_ne hm.root_dir)]
    exact hm.root_dir
  · intro g hg q hq hq'
    rcases (h.live_iff hm hd hdir he).mp hg with ⟨hg, hne⟩ | ⟨rfl, -⟩
    · have hblock : dataBlock m' g (q / BLKSIZE) = dataBlock m g (q / BLKSIZE) :=
        congrFun (h.slot_same hm hd he hg hne) (.data (q / BLKSIZE))
      rw [h.fileSize hm hd he hg hne] at hq'
      rw [hblock]
      exact hm.solid g hg q hq hq'
    · rw [h.blank.fileSize] at hq'
      omega
  · -- another record with the name of the new one would have been found
    have hother : ∀ d' e', Live m d' → Fs.fileType m d' = FTYPE_DIR → Record m d' e →
        Record m d' e' → e' ≠ e → ∀ name, Proper name → nameIs m' e name = true →
        nameIs m' e' name = true → False := by
      intro d' e' hd' hdir' hed he' hne name hname hin hin'
      obtain rfl := hm.record_unique hd hd' he hed
      rw [h.name_same he he' hne hname] at hin'
      have hnone := hfresh name hname hin
      rw [child, if_pos ⟨hdir, hname⟩] at hnone
      rw [firstRecord_none hnone he'] at hin'
      cases hin'
    intro d' hd' hdir' e₁ e₂ name he₁ he₂ hname hin₁ hin₂
    obtain ⟨hd', hdir'⟩ := (h.dir_iff hm hd hdir he).mp ⟨hd', hdir'⟩
    rw [h.record_iff hm hd he hd' hdir'] at he₁ he₂
    rcases Classical.em (e₁ = e) with rfl | hne₁
    · rcases Classical.em (e₂ = e₁) with rfl | hne₂
      · rfl
      · exact (hother d' e₂ hd' hdir' he₁ he₂ hne₂ name hname hin₁ hin₂).elim
    · rcases Classical.em (e₂ = e) with rfl | hne₂
      · exact (hother d' e₁ hd' hdir' he₂ he₁ hne₁ name hname hin₂ hin₁).elim
      · rw [h.name_same he he₁ hne₁ hname] at hin₁
        rw [h.name_same he he₂ hne₂ hname] at hin₂
        exact hm.distinct d' hd' hdir' e₁ e₂ name he₁ he₂ hname hin₁ hin₂
  · have hsame := h.sameBitmap hm hd he
    intro b hb hres huse
    rw [hsame.nblocks] at hb
    rw [Reserved.congr hsame.nblocks] at hres
    rw [hsame.isFree] at huse
    obtain ⟨g, hg, hown⟩ := hm.conserved b hb hres huse
    have hne : g ≠ e := by
      rintro rfl
      exact h.not_owns.1 hown
    exact ⟨g, h.live hm hd he hg hne, (h.owns_iff hm hd he hg hne).mpr hown⟩

/-! ### What the names lead to -/

omit hdir in
/-- Other names lead to the same files. -/
theorem Relinked.child_same {d' : Nat} (hd' : Live m d') (hother : d' = d → Proper name →
    nameIs m e name = false ∧ nameIs m' e name = false) :
  child m' d' name = child m d' name
  := by
  rw [child, child]
  by_cases hcond : Fs.fileType m d' = FTYPE_DIR ∧ Proper name
  · have hne := h.dir_ne hcond.1
    rw [h.fileType hm hd he hd' hne, if_pos hcond, if_pos hcond]
    apply firstRecord_congr (h.fileSize hm hd he hd' hne) (h.slot_same hm hd he hd' hne)
    · intro e' he'
      rcases Classical.em (e' = e) with rfl | hne'
      · obtain ⟨hold, hnew⟩ := hother (hm.record_unique hd' hd he' he) hcond.2
        rw [hold, hnew]
      · exact h.name_same he he' hne' hcond.2
    · exact hm.full d' hd' hcond.1
  · rw [if_neg hcond, if_neg]
    rintro ⟨hdir', hname⟩
    rcases Classical.em (d' = e) with rfl | hne
    · rw [h.blank.fileType] at hdir'
      exact absurd hdir' (by decide)
    · rw [h.fileType hm hd he hd' hne] at hdir'
      exact hcond ⟨hdir', hname⟩

/-- The other files keep their bytes. -/
theorem Relinked.node_same (hg : Live m g) (hne : g ≠ e) :
  node m' g = node m g
  := by
  rw [node, node, h.fileType hm hd he hg hne]
  split
  case isTrue => rfl
  case isFalse hreg =>
    have hgd : g ≠ d := by
      rintro rfl
      exact hreg hdir
    have hslot := h.slot_same hm hd he hg hne
    rw [h.fileSize hm hd he hg hne]
    congr 1
    apply List.map_congr_left
    intro i hi
    rw [List.mem_range] at hi
    rw [Nat.zero_add]
    have hblock := hm.solid g hg i (Nat.zero_le _) hi
    have haddr : byteAddr m' g i = byteAddr m g i := byteAddr_kept (fun s _ => congrFun hslot s) hblock
    rw [byteAt, byteAt, haddr]
    exact h.block_same hm hd he hg hgd (owns_slot (s := .data (i / BLKSIZE)) hblock) (byteAddr_div m g i)

section Path

variable {r : Option Nat} (hp : NameTree.resolve (child m) s_root p = some d)
  (hold : child m d name = some e ∨ child m d name = none ∧ ¬ Live m e) (hnew : child m' d name = r)
  (hr : ∀ e', r = some e' → e' = e)
  (hother : ∀ c, c ≠ name → Proper c → nameIs m e c = false ∧ nameIs m' e c = false)

include hp hold hnew hr hother

/-- The other paths lead to the same files. -/
theorem Relinked.resolve (q : List (List Byte)) :
  NameTree.resolve (child m') s_root q
    = if q = p ++ [name] then r else NameTree.resolve (child m) s_root q
  := by
  apply hm.nameTree.resolve_update hp hnew
  · intro e' c hc
    rcases hold with hold | ⟨hold, -⟩
    · rw [hold] at hc
      obtain rfl := Option.some.inj hc
      exact child_leaf h.plain
    · rw [hold] at hc
      cases hc
  · intro e' c hc
    obtain rfl := hr e' hc
    apply child_leaf
    rw [h.blank.fileType]
    decide
  · intro x c hx hxc
    apply h.child_same hm hd he hx
    rintro rfl hc
    exact hother c (fun hcn => hxc ⟨rfl, hcn⟩) hc

/-- The volume changes at the path of the record only. -/
theorem Relinked.volume :
  Fs.volume m' = Function.update (Fs.volume m) (p ++ [name]) (r.map (node m'))
  := by
  funext q
  rw [Function.update_apply, Fs.volume, h.resolve hm hd hdir he hp hold hnew hr hother]
  split
  case isTrue => rfl
  case isFalse hq =>
    rw [Fs.volume]
    cases hg : NameTree.resolve (child m) s_root q with
    | none => rfl
    | some g =>
        have hlive := hm.nameTree.resolve_in .root hg
        have hne : g ≠ e := by
          rintro rfl
          rcases hold with hold | ⟨-, hold⟩
          · apply hq
            apply hm.nameTree.resolve_inj hg
            rw [resolve_concat, hp, Option.bind_some, hold]
          · exact hold hlive
        rw [Option.map_some, Option.map_some, h.node_same hm hd hdir he hlive hne]

end Path

end Relinked

end Jos.Fs
