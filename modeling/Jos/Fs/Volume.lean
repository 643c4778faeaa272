import Mathlib.Logic.Function.Basic
import Jos.Fs.Paths

/-!
# Volumes

Seen from outside, a file system says what each path leads to: nothing, a directory, or a file with
its bytes.  In a sound file system the bytes of all files are there, and no name is given twice in
a directory.  A change of one file that is no directory is a change at one path.
-/

namespace Jos.Fs

open Bytes Io NameTree

/-! ### Volumes -/

/-- What a path can lead to. -/
inductive Node where
  | dir
  | file (bytes : List Byte)
  deriving DecidableEq

/-- What the paths lead to. -/
abbrev Volume : Type := List (List Byte) → Option Node

/-- The code for a path whose first names, `done`, have been found. -/
def Volume.code (V : Volume) (done : List (List Byte)) : List (List Byte) → Word
  | [] => 0
  | c :: cs =>
      if MAXNAMELEN ≤ c.length then -E_BAD_PATH
      else if (V (done ++ [c])).isSome then V.code (done ++ [c]) cs
      else -E_NOT_FOUND

/-- An empty file is put at a path that leads to nothing, if the names before the last lead to a
directory. -/
def Volume.create (V : Volume) (cs : List (List Byte)) : Word × Volume :=
  if V.code [] cs = 0 then (-E_FILE_EXISTS, V)
  else if V.code [] cs = -E_NOT_FOUND ∧ V cs.dropLast = some .dir then
    (0, Function.update V cs (some (.file [])))
  else (V.code [] cs, V)

/-- What a path leads to is taken away. -/
def Volume.remove (V : Volume) (cs : List (List Byte)) : Word × Volume :=
  if V.code [] cs = 0 then (0, Function.update V cs none) else (V.code [] cs, V)

variable {m m' : Memory} {d e f g : Nat} {cs done : List (List Byte)} {name : List Byte}

/-- What a file is. -/
def node (m : Memory) (f : Nat) : Node :=
  if fileType m f = FTYPE_DIR then .dir else .file (bytesOf m f 0 (fileSize m f))

/-- The volume that is stored. -/
def volume (m : Memory) : Volume :=
  fun cs => (resolve (child m) s_root cs).map (node m)

theorem node_dir :
  node m f = .dir ↔ fileType m f = FTYPE_DIR
  := by
  rw [node]
  split
  case isTrue h => exact iff_of_true rfl h
  case isFalse h => exact iff_of_false Node.noConfusion h

/-! ### What `walk_path` returns -/

@[simp]
theorem walk_nil {o : Option Nat} :
  walk m [] o f = ⟨0, o, some f, []⟩
  := rfl

theorem child_short (h : child m d name = some e) :
  name.length < MAXNAMELEN
  := by
  rw [child] at h
  split at h
  case isTrue hcond => exact hcond.2.short
  case isFalse => cases h

/-- The file that is found is the one that the names lead to. -/
theorem walk_pf {o : Option Nat} :
  (walk m cs o f).pf = resolve (child m) f cs
  := by
  induction cs generalizing f o with
  | nil => rfl
  | cons c cs ih =>
      rw [walk, resolve]
      split
      case isTrue hlong =>
        cases hc : child m f c with
        | none => rfl
        | some e => exact absurd hlong (Nat.not_le.mpr (child_short hc))
      case isFalse =>
        split
        case isTrue htype => rw [child_leaf htype, Option.bind_none]
        case isFalse =>
          cases child m f c with
          | some f' => exact ih
          | none =>
              dsimp only [Option.bind_none]
              split
              · rfl
              · rfl

/-- The code depends on the volume only. -/
theorem walk_r {o : Option Nat} (hdone : resolve (child m) s_root done = some f) :
  (walk m cs o f).r = (volume m).code done cs
  := by
  induction cs generalizing f done o with
  | nil => rfl
  | cons c cs ih =>
      have hnext : volume m (done ++ [c]) = (child m f c).map (node m) := by
        rw [volume, resolve_concat, hdone, Option.bind_some]
      rw [walk, Volume.code, hnext, Option.isSome_map]
      split
      case isTrue => rfl
      case isFalse =>
        split
        case isTrue htype => rw [child_leaf htype]; rfl
        case isFalse =>
          cases hc : child m f c with
          | some f' =>
              apply ih
              rw [resolve_concat, hdone, Option.bind_some, hc]
          | none =>
              dsimp only [Option.isSome_none]
              split
              · rfl
              · rfl

theorem walk_r_root {o : Option Nat} :
  (walk m cs o s_root).r = (volume m).code [] cs
  := walk_r rfl

/-- The code is zero for what is found. -/
theorem walk_r_found {o : Option Nat} :
  (walk m cs o f).r = 0 ↔ (resolve (child m) f cs).isSome = true
  := by
  have hbad : (-E_BAD_PATH : Word) ≠ 0 := by decide
  have hmissing : (-E_NOT_FOUND : Word) ≠ 0 := by decide
  rw [← walk_pf (o := o)]
  induction cs generalizing f o with
  | nil => exact iff_of_true rfl rfl
  | cons c cs ih =>
      rw [walk]
      split
      case isTrue => exact iff_of_false hbad Bool.false_ne_true
      case isFalse =>
        split
        case isTrue => exact iff_of_false hmissing Bool.false_ne_true
        case isFalse =>
          cases child m f c with
          | some f' => exact ih
          | none =>
              dsimp only
              split
              · exact iff_of_false hmissing Bool.false_ne_true
              · exact iff_of_false hmissing Bool.false_ne_true

/-- Where a file that is not found can be put: the directory that all names but the last lead to. -/
def parent (m : Memory) (f : Nat) (cs : List (List Byte)) : Option Nat :=
  (resolve (child m) f cs.dropLast).filter (fun d => fileType m d = FTYPE_DIR)

/-- For a path that is not found but could be, `walk_path` gives the directory and the last name. -/
theorem walk_missing {o : Option Nat} (h : resolve (child m) f cs = none) :
  (walk m cs o f).pdir
      = (if (walk m cs o f).r = -E_NOT_FOUND then parent m f cs else none)
    ∧ ((walk m cs o f).pdir.isSome → cs = cs.dropLast ++ [(walk m cs o f).lastelem]
      ∧ (walk m cs o f).lastelem.length < MAXNAMELEN)
  := by
  induction cs generalizing f o with
  | nil => cases h
  | cons c cs ih =>
      have hparent : cs ≠ [] → child m f c = none → parent m f (c :: cs) = none := by
        intro hcs hc
        rw [parent, List.dropLast_cons_of_ne_nil hcs, resolve, hc]
        rfl
      rw [resolve] at h
      rw [walk]
      split
      case isTrue hlong =>
        exact ⟨rfl, fun hsome => absurd hsome (by decide)⟩
      case isFalse hshort =>
        split
        case isTrue htype =>
          refine ⟨?_, fun hsome => absurd hsome (by decide)⟩
          rw [if_pos rfl]
          symm
          by_cases hcs : cs = []
          · subst hcs
            rw [parent, List.dropLast_singleton, resolve_nil, Option.filter_some,
              if_neg (by simpa using htype)]
          · exact hparent hcs (child_leaf htype)
        case isFalse htype =>
          cases hc : child m f c with
          | some f' =>
              rw [hc, Option.bind_some] at h
              have hcs : cs ≠ [] := by
                rintro rfl
                cases h
              have hdown : parent m f (c :: cs) = parent m f' cs := by
                rw [parent, List.dropLast_cons_of_ne_nil hcs, resolve, hc, Option.bind_some]
                rfl
              dsimp only
              rw [hdown, List.dropLast_cons_of_ne_nil hcs, List.cons_append, List.cons_inj_right]
              exact ih h
          | none =>
              dsimp only
              by_cases hcs : cs = []
              · subst hcs
                rw [if_pos rfl]
                refine ⟨?_, fun _ => ⟨rfl, Nat.lt_of_not_le hshort⟩⟩
                dsimp only
                rw [if_pos rfl, parent, List.dropLast_singleton, resolve_nil, Option.filter_some,
                  if_pos (by simpa using htype)]
              · rw [if_neg hcs]
                refine ⟨?_, fun hsome => absurd hsome (by decide)⟩
                dsimp only
                rw [if_pos rfl, hparent hcs hc]

/-! ### Sound file systems -/

/-- In addition to being neat, all bytes of files have their blocks, names are given once in a
directory, and no block is lost. -/
structure Sound (m : Memory) : Prop extends Neat m where
  root_dir : fileType m s_root = FTYPE_DIR
  solid : ∀ f, Live m f → Allotted m f 0 (fileSize m f)
  distinct : ∀ d, Live m d → fileType m d = FTYPE_DIR → ∀ e e' name, Record m d e → Record m d e' →
    Proper name → nameIs m e name = true → nameIs m e' name = true → e = e'
  conserved : Conserved m

/-- The file with a name is the one that is found. -/
theorem Sound.child_eq (hm : Sound m) (hd : Live m d) (hdir : fileType m d = FTYPE_DIR)
    (he : Record m d e) (hname : Proper name) (hin : nameIs m e name = true) :
  child m d name = some e
  := by
  cases hc : child m d name with
  | none =>
      rw [child, if_pos ⟨hdir, hname⟩] at hc
      rw [firstRecord_none hc he] at hin
      cases hin
  | some e' =>
      obtain ⟨-, -, he', hin'⟩ := child_some hm.toTidy hd hc
      rw [hm.distinct d hd hdir e' e name he' he hname hin' hin]

/-! ### A change of one file -/

section Changes

variable (h : Moved m m' f) (hm : Sound m) (hf : Live m f) (hreg : Fs.fileType m f ≠ FTYPE_DIR)

include h hm hf hreg

theorem Moved.nameIs (hd : Live m d) (hdir : Fs.fileType m d = FTYPE_DIR) (he : Record m d e)
    (hname : Proper name) :
  Fs.nameIs m' e name = Fs.nameIs m e name
  := by
  apply nameIs_congr
  intro i hi
  exact h.name_same hm.toOwned hf hreg hd hdir he (Nat.lt_of_le_of_lt hi hname.short)

/-- The names lead to the same files. -/
theorem Moved.child (hd : Live m d) (name : List Byte) :
  Fs.child m' d name = Fs.child m d name
  := by
  rw [Fs.child, Fs.child, h.fileType hm.toOwned hf hreg hd]
  split
  case isFalse => rfl
  case isTrue hcond =>
    have hne : d ≠ f := by
      rintro rfl
      exact hreg hcond.1
    apply firstRecord_congr (h.other_size hm.toOwned hf hreg hd hne)
      (h.other_slot hm.toOwned hf hd hne hreg)
    · intro e he
      exact h.nameIs hm hf hreg hd hcond.1 he hcond.2
    · exact hm.full d hd hcond.1

/-- The other files keep their bytes. -/
theorem Moved.node_other (hg : Live m g) (hne : g ≠ f) :
  node m' g = node m g
  := by
  rw [node, node, h.fileType hm.toOwned hf hreg hg]
  split
  case isTrue => rfl
  case isFalse hreg' =>
    have hslot := h.other_slot hm.toOwned hf hg hne hreg
    have hsolid := hm.solid g hg
    rw [h.other_size hm.toOwned hf hreg hg hne]
    congr 1
    apply List.map_congr_left
    intro i hi
    rw [List.mem_range] at hi
    rw [Nat.zero_add]
    have hblock := hsolid i (Nat.zero_le _) hi
    have haddr : byteAddr m' g i = byteAddr m g i := byteAddr_kept (fun s _ => congrFun hslot s) hblock
    rw [byteAt, byteAt, haddr]
    apply h.other_block hm.toOwned hf hg hne (owns_slot (s := .data (i / BLKSIZE)) hblock)
      (byteAddr_div m g i)
    -- the structures of files lie in blocks of directories
    intro hmeta
    have hhome := hf.placed.home hmeta.inside.1 hmeta.inside.2
    rw [byteAddr_div] at hhome
    rcases hf.cases with rfl | ⟨-, d, j, hd, hdir, -, hj, hdj⟩
    · apply hm.root_off hg
      rw [← hhome]
      exact owns_slot (s := .data (i / BLKSIZE)) hblock
    · have heq := hm.unique d g (.data j) (.data (i / BLKSIZE)) hd hg hj (hdj.trans hhome.symm)
      rw [heq.1] at hdir
      exact hreg' hdir

/-- The paths lead to the same files. -/
theorem Moved.resolve (p : List (List Byte)) :
  NameTree.resolve (Fs.child m') s_root p = NameTree.resolve (Fs.child m) s_root p
  := by
  apply hm.nameTree.resolve_congr
  intro x hx
  funext name
  exact h.child hm hf hreg hx name

/-- A change of a file is a change at its path. -/
theorem Moved.volume (hcs : NameTree.resolve (Fs.child m) s_root cs = some f) :
  Fs.volume m' = Function.update (Fs.volume m) cs (some (node m' f))
  := by
  funext p
  rw [Function.update_apply, Fs.volume, h.resolve hm hf hreg]
  split
  case isTrue hp => rw [hp, hcs, Option.map_some]
  case isFalse hp =>
    rw [Fs.volume]
    cases hg : NameTree.resolve (Fs.child m) s_root p with
    | none => rfl
    | some g =>
        have hne : g ≠ f := by
          rintro rfl
          exact hp (hm.nameTree.resolve_inj hg hcs)
        rw [Option.map_some, Option.map_some,
          h.node_other hm hf hreg (hm.nameTree.resolve_in .root hg) hne]

/-- The file system is still sound. -/
theorem Moved.sound (hok : FileOk m' f) (hsize : fileSize m' f ≤ MAXFILESIZE) (htrim : Trim m' f)
    (hsnug : Snug m' f) (hsolid : Allotted m' f 0 (fileSize m' f)) :
  Sound m'
  := by
  have hlive := fun g => h.live_iff hm.toOwned hf hreg (g := g)
  refine ⟨h.neat hf hreg hm.toNeat hok hsize htrim hsnug, ?_, ?_, ?_, h.conserved hm.toOwned hf hreg
    hm.conserved⟩
  · rw [h.fileType hm.toOwned hf hreg .root]
    exact hm.root_dir
  · intro g hg
    rw [hlive] at hg
    rcases Classical.em (g = f) with rfl | hne
    · exact hsolid
    · have hslot := h.other_slot hm.toOwned hf hg hne hreg
      intro q hq hq'
      have hblock : dataBlock m' g (q / BLKSIZE) = dataBlock m g (q / BLKSIZE) :=
        congrFun hslot (.data (q / BLKSIZE))
      rw [h.other_size hm.toOwned hf hreg hg hne] at hq'
      rw [hblock]
      exact hm.solid g hg q hq hq'
  · intro d hd hdir e e' name he he' hname hin hin'
    rw [hlive] at hd
    rw [h.fileType hm.toOwned hf hreg hd] at hdir
    rw [h.record_iff hm.toOwned hf hreg hd hdir] at he he'
    rw [h.nameIs hm hf hreg hd hdir he hname] at hin
    rw [h.nameIs hm hf hreg hd hdir he' hname] at hin'
    exact hm.distinct d hd hdir e e' name he he' hname hin hin'

end Changes

end Jos.Fs
