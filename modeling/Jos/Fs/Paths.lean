import Jos.Fs.Names

/-!
# Evaluating paths

A path is split at the slashes; slashes in a row, at the start or at the end do not count.
`walk_path` goes from the root directory down the tree of names, and changes nothing.
-/

namespace Jos.Fs

open Bytes Io NameTree

variable {m : Memory} {E : Prop} {d e f : Nat} {path : List Byte}

/-! ### The names in a path -/

/-- The names in a path. -/
def components (path : List Byte) : List (List Byte) :=
  (path.splitOn SLASH).filter (fun c => c ≠ [])

@[simp]
theorem components_nil :
  components [] = []
  := rfl

theorem components_slash :
  components (SLASH :: path) = components path
  := by
  rw [components, components, List.splitOn_cons_eq_if_modifyHead, if_pos (beq_self_eq_true _)]
  rfl

/-- Slashes at the start do not count. -/
theorem components_skipSlash :
  components (skipSlash path) = components path
  := by
  induction path with
  | nil => rfl
  | cons c path ih =>
      rw [skipSlash, List.dropWhile_cons]
      split
      case isTrue hc =>
        rw [← skipSlash, ih, eq_of_beq hc, components_slash]
      case isFalse => rfl

/-- The first name ends before the next slash. -/
theorem components_first (hpath : path ≠ []) (hfirst : path.head? ≠ some SLASH) :
  components path = path.takeWhile (· != SLASH) :: components (path.dropWhile (· != SLASH))
  := by
  have hnoslash : SLASH ∉ path.takeWhile (· != SLASH) := by
    intro hin
    have hne := List.all_takeWhile (p := (· != SLASH)) (l := path)
    rw [List.all_eq_true] at hne
    exact absurd (hne SLASH hin) (by simp)
  have hne : path.takeWhile (· != SLASH) ≠ [] := by
    cases path with
    | nil => exact absurd rfl hpath
    | cons c path =>
        have hc : (c != SLASH) = true := by
          rw [bne_iff_ne]
          rintro rfl
          exact hfirst rfl
        rw [List.takeWhile_cons, if_pos hc]
        exact List.cons_ne_nil _ _
  have hsplit : path = path.takeWhile (· != SLASH) ++ path.dropWhile (· != SLASH) :=
    List.takeWhile_append_dropWhile.symm
  have hrest : (path.dropWhile (· != SLASH)).head? ≠ none →
      (path.dropWhile (· != SLASH)).head? = some SLASH := by
    intro hsome
    have hhead := List.head?_dropWhile_not (· != SLASH) path
    cases h : (path.dropWhile (· != SLASH)).head? with
    | none => exact absurd h hsome
    | some c =>
        rw [h] at hhead
        rw [bne_eq_false_iff_eq.mp hhead]
  generalize path.takeWhile (· != SLASH) = name at *
  generalize path.dropWhile (· != SLASH) = rest at *
  rw [hsplit]
  cases rest with
  | nil =>
      rw [List.append_nil, components, List.splitOn_eq_singleton hnoslash]
      exact List.filter_cons_of_pos (decide_eq_true hne)
  | cons c rest =>
      obtain rfl := Option.some.inj (hrest (by simp))
      rw [components, List.splitOn_append_cons_self_of_not_mem hnoslash, components_slash]
      exact List.filter_cons_of_pos (decide_eq_true hne)

theorem skipSlash_head :
  (skipSlash path).head? ≠ some SLASH
  := by
  intro h
  have hhead := List.head?_dropWhile_not (· == SLASH) path
  rw [skipSlash] at h
  rw [h] at hhead
  cases hhead

/-- The names in a path are not empty, and their bytes are bytes of the path. -/
theorem mem_components {c : List Byte} (hc : c ∈ components path) :
  c ≠ [] ∧ ∀ x ∈ c, x ∈ path
  := by
  rw [components, List.mem_filter] at hc
  refine ⟨of_decide_eq_true hc.2, ?_⟩
  have hin := hc.1
  clear hc
  induction path generalizing c with
  | nil =>
      rw [List.splitOn_nil, List.mem_singleton] at hin
      rw [hin]
      exact fun x hx => hx
  | cons y path ih =>
      rw [List.splitOn_cons_eq_if_modifyHead] at hin
      split at hin
      case isTrue =>
        rcases List.mem_cons.mp hin with rfl | hin
        · exact fun x hx => absurd hx List.not_mem_nil
        · exact fun x hx => List.mem_cons_of_mem _ (ih hin x hx)
      case isFalse =>
        cases hsplit : path.splitOn SLASH with
        | nil => exact absurd hsplit (List.splitOn_ne_nil _ _)
        | cons c' cs =>
            rw [hsplit] at ih
            rw [hsplit, List.modifyHead_cons, List.mem_cons] at hin
            rcases hin with rfl | hin
            · intro x hx
              rcases List.mem_cons.mp hx with rfl | hx
              · exact List.mem_cons_self ..
              · exact List.mem_cons_of_mem _ (ih (List.mem_cons_self ..) x hx)
            · exact fun x hx => List.mem_cons_of_mem _ (ih (List.mem_cons_of_mem _ hin) x hx)

/-! ### Going down the tree -/

/-- What `walk_path` finds for the names that are left, at the file `f` in the directory `dir`. -/
def walk (m : Memory) : List (List Byte) → Option Nat → Nat → Walk
  | [], dir, f => ⟨0, dir, some f, []⟩
  | c :: cs, _, f =>
      if MAXNAMELEN ≤ c.length then
        ⟨-E_BAD_PATH, none, none, []⟩
      else if fileType m f ≠ FTYPE_DIR then
        ⟨-E_NOT_FOUND, none, none, []⟩
      else
        match child m f c with
        | some f' => walk m cs (some f) f'
        | none => if cs = [] then ⟨-E_NOT_FOUND, some f, none, c⟩ else ⟨-E_NOT_FOUND, none, none, []⟩

/-- The loop of `walk_path` has enough rounds. -/
theorem ends_walkLoop {Q : Walk → Memory → Prop} {dir : Option Nat} {n : Nat} (hm : Tidy m)
    (hf : Live m f) (hpath : 0 ∉ path) (hfirst : path.head? ≠ some SLASH) (hn : path.length ≤ n)
    (hQ : Q (walk m (components path) dir f) m) :
  (walkLoop n path dir f).Ends valid m Q E
  := by
  induction n generalizing path dir f with
  | zero =>
      obtain rfl := List.length_eq_zero_iff.mp (Nat.le_zero.mp hn)
      exact (ends_pure _).mpr hQ
  | succ n ih =>
      rw [walkLoop, ends_ite]
      constructor
      · rintro rfl
        exact (ends_pure _).mpr hQ
      · intro hne
        have hcs := components_first hne hfirst
        have hname : path.takeWhile (· != SLASH) ∈ components path := by
          rw [hcs]
          exact List.mem_cons_self ..
        obtain ⟨hnonempty, hbytes⟩ := mem_components hname
        -- what is left is shorter, and does not start with a slash either
        have hrest : components (skipSlash (path.dropWhile (· != SLASH)))
            = components (path.dropWhile (· != SLASH)) := components_skipSlash
        have hnil : skipSlash (path.dropWhile (· != SLASH)) = []
            ↔ components (path.dropWhile (· != SLASH)) = [] := by
          rw [← hrest]
          constructor
          · intro h
            rw [h]
            rfl
          · intro h
            by_contra hskip
            rw [components_first hskip skipSlash_head] at h
            cases h
        have hsub : ∀ x ∈ skipSlash (path.dropWhile (· != SLASH)), x ∈ path := by
          intro x hx
          exact List.dropWhile_subset _ (List.dropWhile_subset _ hx)
        have hlength : (skipSlash (path.dropWhile (· != SLASH))).length ≤ n := by
          have hsplit := congrArg List.length
            (List.takeWhile_append_dropWhile (p := (· != SLASH)) (l := path))
          have hskip := (List.dropWhile_suffix (l := path.dropWhile (· != SLASH)) (· == SLASH)).length_le
          have hpos := List.length_pos_iff.mpr hnonempty
          rw [List.length_append] at hsplit
          rw [skipSlash]
          omega
        rw [hcs, walk] at hQ
        rw [ends_ite]
        constructor
        · intro hlong
          rw [if_pos hlong] at hQ
          exact (ends_pure _).mpr hQ
        · intro hshort
          have hproper : Proper (path.takeWhile (· != SLASH)) :=
            ⟨hnonempty, Nat.lt_of_not_le hshort, fun hzero => hpath (hbytes 0 hzero)⟩
          rw [if_neg hshort] at hQ
          rw [ends_bind, ends_get32]
          refine ⟨(hm.fileOk hf).okWord_field (by decide) (by decide), ?_⟩
          rw [ends_ite]
          constructor
          · intro htype
            rw [if_pos (show fileType m f ≠ FTYPE_DIR from htype)] at hQ
            exact (ends_pure _).mpr hQ
          · intro htype
            have hdir : fileType m f = FTYPE_DIR := not_not.mp htype
            rw [if_neg (not_not.mpr hdir)] at hQ
            rw [ends_bind]
            apply ends_dirLookup hm hf hdir hproper
            cases hc : child m f (path.takeWhile (· != SLASH)) with
            | some f' =>
                rw [hc] at hQ
                apply ih (hm.nameTree.closed hf hc) (fun hzero => hpath (hsub 0 hzero))
                  skipSlash_head hlength
                rw [hrest]
                exact hQ
            | none =>
                rw [hc] at hQ
                dsimp only at hQ
                rw [Option.elim_none]
                dsimp only
                by_cases hlast : components (path.dropWhile (· != SLASH)) = []
                · rw [if_pos hlast] at hQ
                  rw [if_pos ⟨rfl, hnil.mpr hlast⟩]
                  exact (ends_pure _).mpr hQ
                · rw [if_neg hlast] at hQ
                  rw [if_neg (fun h => hlast (hnil.mp h.2))]
                  exact (ends_pure _).mpr hQ

/-- `walk_path` goes down the tree along the names in the path, and changes nothing. -/
theorem ends_walkPath {Q : Walk → Memory → Prop} (hm : Tidy m) (hpath : 0 ∉ path)
    (hQ : Q (walk m (components path) none s_root) m) :
  (walkPath path).Ends valid m Q E
  := by
  rw [← components_skipSlash] at hQ
  apply ends_walkLoop hm .root _ skipSlash_head (Nat.le_refl _) hQ
  exact fun hzero => hpath (List.dropWhile_subset _ hzero)

end Jos.Fs
