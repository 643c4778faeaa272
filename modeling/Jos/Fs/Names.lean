import Jos.Fs.Flush
import Jos.Fs.Tidy
import Jos.Lib.NameTree

/-!
# Names and paths

What `walk_path` does is read off the tree of names: the records of a directory with a name are its
children, a path is split at the slashes, and its components are followed from the root directory.
Evaluating a path changes nothing.
-/

namespace Jos.Fs

open Bytes Io NameTree

variable {m m' : Memory} {E : Prop} {d e f : Nat} {name : List Byte}

/-! ### Searching -/

/-- A search with a body that only looks. -/
theorem ends_findUp_look {β : Type} {ok : Memory → Nat → Bool} {body : Nat → Io (Option β)}
    {g : Nat → Option β} {Q : Option β → Memory → Prop} {lo n : Nat}
    (h : ∀ i, lo ≤ i → i < lo + n → ∀ Q : Option β → Memory → Prop, Q (g i) m →
      (body i).Ends ok m Q E)
    (hQ : Q ((List.range' lo n).findSome? g) m) :
  (findUp lo n body).Ends ok m Q E
  := by
  induction n generalizing lo Q with
  | zero =>
      rw [findUp, ends_pure]
      exact hQ
  | succ n ih =>
      rw [findUp, ends_bind]
      apply h lo (Nat.le_refl lo) (by omega)
      rw [List.range'_succ, List.findSome?_cons] at hQ
      cases hg : g lo with
      | some b =>
          rw [hg] at hQ
          exact (ends_pure _).mpr hQ
      | none =>
          rw [hg] at hQ
          apply ih _ hQ
          exact fun i hi hi' => h i (by omega) (by omega)

/-! ### Names -/

/-- The string at an address is `name`. -/
def nameIs (m : Memory) : Nat → List Byte → Bool
  | a, [] => m a == 0
  | a, c :: cs => m a == c && nameIs m (a + 1) cs

/-- What may be the name of a file. -/
structure Proper (name : List Byte) : Prop where
  ne_nil : name ≠ []
  short : name.length < MAXNAMELEN
  nonzero : 0 ∉ name

theorem proper_iff :
  name ≠ [] ∧ name.length < MAXNAMELEN ∧ name.all (· != 0) = true ↔ Proper name
  := by
  rw [List.all_eq_true]
  constructor
  · rintro ⟨hne, hshort, hall⟩
    exact ⟨hne, hshort, fun hzero => absurd (hall 0 hzero) (by simp)⟩
  · rintro ⟨hne, hshort, hzero⟩
    refine ⟨hne, hshort, fun x hx => bne_iff_ne.mpr ?_⟩
    rintro rfl
    exact hzero hx

instance (name : List Byte) : Decidable (Proper name) :=
  decidable_of_iff _ proper_iff

/-- The first of the records of `d` with a property. -/
def firstRecord (m : Memory) (d : Nat) (p : Nat → Bool) : Option Nat :=
  (List.range' 0 (fileSize m d / BLKSIZE)).findSome? fun i =>
    (List.range' 0 BLKFILES).findSome? fun j =>
      if p (entryAddr m d i j) then some (entryAddr m d i j) else none

/-- The file that is called `name` in the directory `d`. -/
def child (m : Memory) (d : Nat) (name : List Byte) : Option Nat :=
  if fileType m d = FTYPE_DIR ∧ Proper name then firstRecord m d (fun e => nameIs m e name) else none

/-- A name is the bytes up to the first that is zero. -/
theorem nameIs_iff {a : Nat} :
  nameIs m a name = true ↔ (∀ i (h : i < name.length), m (a + i) = name[i]) ∧ m (a + name.length) = 0
  := by
  induction name generalizing a with
  | nil => simp [nameIs]
  | cons c cs ih =>
      rw [nameIs, Bool.and_eq_true, beq_iff_eq, ih]
      constructor
      · rintro ⟨hc, hcs, hend⟩
        constructor
        · intro i hi
          cases i with
          | zero => exact hc
          | succ i =>
              have hi' := hcs i (Nat.lt_of_succ_lt_succ hi)
              rw [Nat.add_assoc, Nat.add_comm 1] at hi'
              exact hi'
        · rw [Nat.add_assoc, Nat.add_comm 1] at hend
          exact hend
      · rintro ⟨hall, hend⟩
        refine ⟨hall 0 (Nat.succ_pos _), ?_, ?_⟩
        · intro i hi
          have hi' := hall (i + 1) (Nat.succ_lt_succ hi)
          rw [Nat.add_assoc, Nat.add_comm 1]
          exact hi'
        · rw [Nat.add_assoc, Nat.add_comm 1]
          exact hend

/-- A record has one name. -/
theorem nameIs_inj {a : Nat} {name' : List Byte} (h : nameIs m a name = true)
    (h' : nameIs m a name' = true) (hzero : 0 ∉ name) (hzero' : 0 ∉ name') :
  name = name'
  := by
  induction name generalizing a name' with
  | nil =>
      cases name' with
      | nil => rfl
      | cons c cs =>
          rw [nameIs, beq_iff_eq] at h
          rw [nameIs, Bool.and_eq_true, beq_iff_eq, h] at h'
          exact (hzero' (h'.1 ▸ List.mem_cons_self ..)).elim
  | cons c cs ih =>
      rw [nameIs, Bool.and_eq_true, beq_iff_eq] at h
      cases name' with
      | nil =>
          rw [nameIs, beq_iff_eq, h.1] at h'
          exact (hzero (h' ▸ List.mem_cons_self ..)).elim
      | cons c' cs' =>
          rw [nameIs, Bool.and_eq_true, beq_iff_eq] at h'
          rw [← h.1, ← h'.1, ih h.2 h'.2 (fun hx => hzero (List.mem_cons_of_mem _ hx))
            (fun hx => hzero' (List.mem_cons_of_mem _ hx))]

/-- A name depends on the bytes of the name only. -/
theorem nameIs_congr {a : Nat} (h : ∀ i ≤ name.length, m' (a + i) = m (a + i)) :
  nameIs m' a name = nameIs m a name
  := by
  induction name generalizing a with
  | nil =>
      rw [nameIs, nameIs]
      exact congrArg (· == 0) (h 0 (Nat.le_refl 0))
  | cons c cs ih =>
      rw [nameIs, nameIs]
      have hfirst : m' a = m a := h 0 (Nat.zero_le _)
      have hrest : ∀ i ≤ cs.length, m' (a + 1 + i) = m (a + 1 + i) := by
        intro i hi
        rw [Nat.add_assoc, Nat.add_comm 1]
        exact h (i + 1) (Nat.succ_le_succ hi)
      rw [hfirst, ih hrest]

/-- A record with a proper name is in use. -/
theorem Proper.used {a : Nat} (h : Proper name) (hname : nameIs m a name = true) :
  m a ≠ 0
  := by
  intro hzero
  cases name with
  | nil => exact h.ne_nil rfl
  | cons c cs =>
      rw [nameIs, Bool.and_eq_true, beq_iff_eq, hzero] at hname
      exact h.nonzero (hname.1 ▸ List.mem_cons_self ..)

/-- Searches that find the same at each place find the same. -/
theorem findSome?_congr {α β : Type} {g g' : α → Option β} {l : List α}
    (h : ∀ x ∈ l, g' x = g x) :
  l.findSome? g' = l.findSome? g
  := by
  induction l with
  | nil => rfl
  | cons x l ih =>
      rw [List.findSome?_cons, List.findSome?_cons, h x (List.mem_cons_self ..),
        ih (fun y hy => h y (List.mem_cons_of_mem _ hy))]

/-- The first record with a property is a record with the property. -/
theorem firstRecord_some {p : Nat → Bool} (hfull : ∀ i < fileSize m d / BLKSIZE, dataBlock m d i ≠ 0)
    (h : firstRecord m d p = some e) :
  Record m d e ∧ p e = true
  := by
  obtain ⟨i, hi, hin⟩ := List.exists_of_findSome?_eq_some h
  obtain ⟨j, hj, hij⟩ := List.exists_of_findSome?_eq_some hin
  rw [List.mem_range'_1] at hi hj
  split at hij
  case isTrue hp =>
    obtain rfl := Option.some.inj hij
    exact ⟨⟨i, j, by omega, hfull i (by omega), by omega, rfl⟩, hp⟩
  case isFalse => cases hij

theorem firstRecord_none {p : Nat → Bool} (h : firstRecord m d p = none) (he : Record m d e) :
  p e = false
  := by
  obtain ⟨i, j, hi, -, hj, rfl⟩ := he
  rw [firstRecord, List.findSome?_eq_none_iff] at h
  have hin := h i (by rw [List.mem_range'_1]; omega)
  rw [List.findSome?_eq_none_iff] at hin
  have hij := hin j (by rw [List.mem_range'_1]; omega)
  split at hij
  case isTrue => cases hij
  case isFalse hp => exact Bool.eq_false_iff.mpr hp

/-- Where the records are the same, and have the property or not as before, the first is the same. -/
theorem firstRecord_congr {p p' : Nat → Bool} (hsize : fileSize m' d = fileSize m d)
    (hslot : slot m' d = slot m d) (h : ∀ e, Record m d e → p' e = p e)
    (hfull : ∀ i < fileSize m d / BLKSIZE, dataBlock m d i ≠ 0) :
  firstRecord m' d p' = firstRecord m d p
  := by
  have hblock : ∀ i, dataBlock m' d i = dataBlock m d i := fun i => congrFun hslot (.data i)
  rw [firstRecord, firstRecord, hsize]
  apply findSome?_congr
  intro i hi
  rw [List.mem_range'_1] at hi
  apply findSome?_congr
  intro j hj
  rw [List.mem_range'_1] at hj
  have haddr : entryAddr m' d i j = entryAddr m d i j := by rw [entryAddr, entryAddr, hblock]
  rw [haddr, h _ ⟨i, j, by omega, hfull i (by omega), by omega, rfl⟩]

/-! ### Looking up a name -/

/-- The bytes of a record may be accessed. -/
theorem Tidy.valid_record (hm : Tidy m) (hd : Live m d) (he : Record m d e) {a : Nat} (ha : e ≤ a)
    (ha' : a < e + FILESIZE) :
  valid m a = true
  := (hm.fileOk hd).valid_owned (he.block ha ha').1 rfl

/-- The comparison of a name only looks. -/
theorem ends_strcmpEq {a : Nat} {Q : Bool → Memory → Prop}
    (h : ∀ i ≤ name.length, valid m (a + i) = true) (hQ : Q (nameIs m a name) m) :
  (strcmpEq a name).Ends valid m Q E
  := by
  induction name generalizing a with
  | nil =>
      rw [strcmpEq, ends_bind, ends_get8]
      exact ⟨h 0 (Nat.le_refl 0), (ends_pure _).mpr hQ⟩
  | cons c cs ih =>
      rw [strcmpEq, ends_bind, ends_get8]
      refine ⟨h 0 (Nat.zero_le _), ?_⟩
      rw [nameIs] at hQ
      rw [ends_ite]
      constructor
      · intro hc
        apply ih
        · intro i hi
          rw [Nat.add_assoc, Nat.add_comm 1]
          exact h (i + 1) (Nat.succ_le_succ hi)
        · rw [beq_iff_eq.mpr hc, Bool.true_and] at hQ
          exact hQ
      · intro hc
        rw [beq_eq_false_iff_ne.mpr hc, Bool.false_and] at hQ
        exact (ends_pure _).mpr hQ

/-- The number of blocks of a directory. -/
theorem ends_dirBlocks {Q : Word → Memory → Prop} (hm : Tidy m) (hd : Live m d)
    (hdir : fileType m d = FTYPE_DIR)
    (hQ : ∀ n : Word, n.toNat = fileSize m d / BLKSIZE → Q n m) :
  (dirBlocks d).Ends valid m Q E
  := by
  have hsize := hm.size d hd
  have hsmall : (read32 m (f_size d)).toNat < 2 ^ 31 := by
    have hmax : MAXFILESIZE < 2 ^ 31 := by decide
    exact Nat.lt_of_le_of_lt hsize hmax
  have hwhole : (read32 m (f_size d)).srem (BitVec.ofNat 32 BLKSIZE) = 0 := by
    rw [srem_BLKSIZE hsmall]
    have hmod : (read32 m (f_size d)).toNat % BLKSIZE = 0 := hm.whole d hd hdir
    rw [hmod]
    rfl
  rw [dirBlocks, ends_bind, ends_get32]
  refine ⟨(hm.fileOk hd).okWord_f_size, ?_⟩
  rw [if_neg (not_not.mpr hwhole), ends_pure]
  exact hQ _ (sdiv_BLKSIZE hsmall)

/-- A search through the records of a directory. -/
theorem ends_searchBlocks {Q : Option (Except Word Nat) → Memory → Prop} {p : Nat → Bool}
    {entry : Nat → Io (Option (Except Word Nat))} {n : Nat} (hm : Tidy m) (hd : Live m d)
    (hdir : fileType m d = FTYPE_DIR) (hn : n = fileSize m d / BLKSIZE)
    (hentry : ∀ e, Record m d e → ∀ Q : Option (Except Word Nat) → Memory → Prop,
      Q (if p e then some (.ok e) else none) m → (entry e).Ends valid m Q E)
    (hQ : Q ((firstRecord m d p).map Except.ok) m) :
  (findUp 0 n (fun i => searchBlock d i entry)).Ends valid m Q E
  := by
  have hfull := hm.full d hd hdir
  have hsize := hm.size d hd
  apply ends_findUp_look (g := fun i => ((List.range' 0 BLKFILES).findSome? fun j =>
    if p (entryAddr m d i j) then some (entryAddr m d i j) else none).map Except.ok)
  · intro i _ hi Q hQ
    have hi' : i < fileSize m d / BLKSIZE := by omega
    have hw : (BitVec.ofNat 32 i).toNat = i := by
      rw [BitVec.toNat_ofNat]
      simp only [MAXFILESIZE, NDIRECT, NINDIRECT, BLKSIZE] at hsize hi'
      omega
    rw [searchBlock, ends_bind]
    apply ends_fileGetBlock_there (hm.fileOk hd)
    · rw [hw]
      exact hfull i hi'
    · rw [hw]
      apply ends_findUp_look (g := fun j =>
        if p (entryAddr m d i j) then some (.ok (entryAddr m d i j)) else none)
      · intro j _ hj Q hQ
        exact hentry _ ⟨i, j, hi', hfull i hi', by omega, rfl⟩ Q hQ
      · rw [List.map_findSome?] at hQ
        convert hQ using 2
        funext j
        rw [Function.comp_apply]
        split
        · rfl
        · rfl
  · rw [firstRecord, List.map_findSome?, ← hn] at hQ
    exact hQ

/-- `dir_lookup` finds the file with the name, and changes nothing. -/
theorem ends_dirLookup {Q : Except Word Nat → Memory → Prop} (hm : Tidy m) (hd : Live m d)
    (hdir : fileType m d = FTYPE_DIR) (hname : Proper name)
    (hQ : Q ((child m d name).elim (.error (-E_NOT_FOUND)) .ok) m) :
  (dirLookup d name).Ends valid m Q E
  := by
  rw [dirLookup, ends_bind]
  apply ends_dirBlocks hm hd hdir
  intro n hn
  rw [ends_bind]
  apply ends_searchBlocks (p := fun e => nameIs m e name) hm hd hdir hn
  · intro e he Q hQ
    rw [entryNamed, ends_bind]
    apply ends_strcmpEq
    · intro i hi
      have hshort := hname.short
      simp only [MAXNAMELEN] at hshort
      apply hm.valid_record hd he (Nat.le_add_right _ _)
      simp only [FILESIZE]
      omega
    · cases hp : nameIs m (f_name e) name with
      | true =>
          rw [f_name] at hp
          rw [hp] at hQ
          exact (ends_pure _).mpr hQ
      | false =>
          rw [f_name] at hp
          rw [hp] at hQ
          exact (ends_pure _).mpr hQ
  · rw [ends_pure]
    rw [child, if_pos ⟨hdir, hname⟩] at hQ
    cases hc : firstRecord m d (fun e => nameIs m e name) with
    | none =>
        rw [hc] at hQ
        exact hQ
    | some e =>
        rw [hc] at hQ
        exact hQ

/-! ### The tree of names -/

theorem child_some (hm : Tidy m) (hd : Live m d) (h : child m d name = some e) :
  fileType m d = FTYPE_DIR ∧ Proper name ∧ Record m d e ∧ nameIs m e name = true
  := by
  rw [child] at h
  split at h
  case isTrue hcond =>
    obtain ⟨he, hname⟩ := firstRecord_some (hm.full d hd hcond.1) h
    exact ⟨hcond.1, hcond.2, he, hname⟩
  case isFalse => cases h

/-- Files that are no directories have no children. -/
theorem child_leaf (h : fileType m d ≠ FTYPE_DIR) :
  child m d name = none
  := if_neg (fun hcond => h hcond.1)

/-- A record lies in one directory. -/
theorem Owned.record_unique {d' : Nat} (hm : Owned m) (hd : Live m d) (hd' : Live m d')
    (h : Record m d e) (h' : Record m d' e) :
  d = d'
  := by
  obtain ⟨i, j, -, hblock, hj, rfl⟩ := h
  obtain ⟨i', j', -, hblock', hj', heq⟩ := h'
  have hhome := congrArg home heq
  rw [entryAddr_home hj, entryAddr_home hj'] at hhome
  exact (hm.unique d d' (.data i) (.data i') hd hd' hblock hhome).1

/-- The files of a tidy file system are a tree. -/
theorem Tidy.nameTree (hm : Tidy m) :
  NameTree (Live m) s_root (child m)
  := by
  constructor
  case root_in => exact .root
  case closed =>
    intro d e name hd h
    obtain ⟨hdir, hname, he, hin⟩ := child_some hm hd h
    exact he.live hd hdir (hname.used hin)
  case inj =>
    intro d d' e name name' hd hd' h h'
    obtain ⟨-, hname, he, hin⟩ := child_some hm hd h
    obtain ⟨-, hname', he', hin'⟩ := child_some hm hd' h'
    constructor
    · exact hm.record_unique hd hd' he he'
    · exact nameIs_inj hin hin' hname.nonzero hname'.nonzero
  case top =>
    intro d name hd h
    obtain ⟨-, -, he, -⟩ := child_some hm hd h
    exact absurd he.mod (by decide)

end Jos.Fs
