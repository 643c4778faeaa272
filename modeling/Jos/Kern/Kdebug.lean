import Jos.Kern.Stab
import Jos.Kern.Env
import Jos.Kern.Mmu

/-!
# Debugging information

`debuginfo_eip` of `kern/kdebug.c` finds the line of source code for an address: it searches the
table of stabs for the source file, then the stabs of the file for the function, and then those of
the function for the line.  A user program brings a table of its own, which it describes at
`USTABDATA`.

Both kernels have the function.  They differ in how they look at the result of `user_mem_check`, and
in the end of the last bracket from which they take the line.  The parameters `failed` and `end_of`
stand for this.
-/

namespace Jos

open Bytes Prog Stab

/-! ### The source -/

def USTABDATA : Word := BitVec.ofNat 32 (PTSIZE / 2)

/-- What `debuginfo_eip` uses of the kernel: reads of memory, `user_mem_check` for the current
environment with `PTE_U | PTE_P`, and the symbols at the ends of the tables of the kernel. -/
structure DebugOps (σ : Type) where
  load : Word → Prog σ Byte
  user_mem_check : Word → Word → Prog σ Word
  STAB_BEGIN : Word
  STAB_END : Word
  STABSTR_BEGIN : Word
  STABSTR_END : Word

/-- A string: `"<unknown>"`, or one in memory. -/
inductive DebugName where
  | unknown
  | at (va : Word)

/-- `struct Eipdebuginfo`. -/
structure Eipdebuginfo where
  eip_file : DebugName := .unknown
  eip_line : Int := 0
  eip_fn_name : DebugName := .unknown
  eip_fn_namelen : Int := 9
  eip_fn_addr : Word
  eip_fn_narg : Nat := 0

/-- The tables: `stabs`, `stab_end`, `stabstr` and `stabstr_end`. -/
structure StabData where
  stabs : Word
  stab_end : Word
  stabstr : Word
  stabstr_end : Word

/-- `sizeof(struct UserStabData)`. -/
def sizeofUserStabData : Word := 16

/-- `stab_end - stabs`. The compiled code divides the difference in bytes by the size of a
`struct Stab`, which is `12`, as one divides a number that is a multiple of it: it shifts by `2` and
multiplies with the inverse of `3`. -/
def StabData.count (d : StabData) : Word :=
  (d.stab_end - d.stabs).sshiftRight 2 * 0xAAAAAAAB

variable {σ : Type}

/-- The word at `va`. -/
def loadWord (load : Word → Prog σ Byte) (va : Word) : Prog σ Word := do
  let b0 ← load va
  let b1 ← load (va + 1)
  let b2 ← load (va + 2)
  let b3 ← load (va + 3)
  pure (b3 ++ b2 ++ b1 ++ b0)

/-- The half word at `va`. -/
def loadHalf (load : Word → Prog σ Byte) (va : Word) : Prog σ (BitVec 16) := do
  let b0 ← load va
  let b1 ← load (va + 1)
  pure (b1 ++ b0)

/-- The address of `stabs[i]`. -/
def stabAddr (stabs : Word) (i : Int) : Word :=
  stabs + BitVec.ofInt 32 (12 * i)

/-- The stabs from the address `stabs` on. -/
def stabsAt (load : Word → Prog σ Byte) (stabs : Word) : Stabs σ where
  n_strx i := loadWord load (stabAddr stabs i)
  n_type i := load (stabAddr stabs i + 4)
  n_desc i := loadHalf load (stabAddr stabs i + 6)
  n_value i := loadWord load (stabAddr stabs i + 8)

/-- `strfind(s, ':') - s`. -/
def nameLen (load : Word → Prog σ Byte) : DebugName → Prog σ Int
  | .unknown => pure 9
  | .at s => do
      let n ← Prog.skipUp 0 (2 ^ 32) (fun i => do
        let ch ← load (s + BitVec.ofNat 32 i)
        pure (ch ≠ 0 ∧ ch ≠ 0x3a))
      pure n

/-- Find the tables for `addr`. -/
def stabTables (ops : DebugOps σ) (failed : Word → Bool) (addr : Word) : Prog σ (Option StabData) := do
  if addr.toNat ≥ ULIM then
    pure (some ⟨ops.STAB_BEGIN, ops.STAB_END, ops.STABSTR_BEGIN, ops.STABSTR_END⟩)
  else
    let r ← ops.user_mem_check USTABDATA sizeofUserStabData
    if failed r then
      pure none
    else
      let stabs ← loadWord ops.load USTABDATA
      let stab_end ← loadWord ops.load (USTABDATA + 4)
      let stabstr ← loadWord ops.load (USTABDATA + 8)
      let stabstr_end ← loadWord ops.load (USTABDATA + 12)
      let d : StabData := ⟨stabs, stab_end, stabstr, stabstr_end⟩
      let r ← ops.user_mem_check stabs d.count
      if failed r then
        pure none
      else
        let r ← ops.user_mem_check stabstr (stabstr_end - stabstr)
        if failed r then
          pure none
        else
          pure (some d)

/-- The string with the number `strx`, if it is in the table, and else `name`. -/
def stringOr (d : StabData) (strx : Word) (name : DebugName) : DebugName :=
  if strx < d.stabstr_end - d.stabstr then .at (d.stabstr + strx) else name

/-- Go down from the stab `m` over at most `n` stabs to one that names a source file. -/
def sourceDown (stabs : Stabs σ) : Nat → Int → Prog σ (Option Int)
  | 0, _ => pure none
  | n + 1, m => do
      let t ← stabs.n_type m
      if t = N_SOL then
        pure (some m)
      else if t = N_SO then
        let v ← stabs.n_value m
        if v = 0 then
          sourceDown stabs n (m - 1)
        else
          pure (some m)
      else
        sourceDown stabs n (m - 1)

/-- Count the stabs of arguments from `i` on, among the next `n` ones. -/
def countArgs (stabs : Stabs σ) : Nat → Int → Prog σ Nat
  | 0, _ => pure 0
  | n + 1, i => do
      let t ← stabs.n_type i
      if t = N_PSYM then
        let k ← countArgs stabs n (i + 1)
        pure (k + 1)
      else
        pure 0

/-- Fill in what is known of the function with the stab `lfun`. -/
def functionInfo (stabs : Stabs σ) (d : StabData) (lfun : Int) (info : Eipdebuginfo) :
    Prog σ Eipdebuginfo := do
  let strx ← stabs.n_strx lfun
  let value ← stabs.n_value lfun
  pure { info with eip_fn_name := stringOr d strx info.eip_fn_name, eip_fn_addr := value }

/-- Fill in the source file of the line with the stab `lline`. -/
def fileInfo (stabs : Stabs σ) (d : StabData) (lfile lline : Int) (info : Eipdebuginfo) :
    Prog σ Eipdebuginfo := do
  let m ← sourceDown stabs (lline - lfile + 1).toNat lline
  match m with
  | none => pure info
  | some m => do
      let strx ← stabs.n_strx m
      pure { info with eip_file := stringOr d strx info.eip_file }

/-- Fill in the number of arguments of the function. -/
def argsInfo (stabs : Stabs σ) (lfun rfun : Int) (info : Eipdebuginfo) : Prog σ Eipdebuginfo := do
  if lfun < rfun then
    let n ← countArgs stabs (rfun - lfun - 1).toNat (lfun + 1)
    pure { info with eip_fn_narg := n }
  else
    pure info

/-- Find the line of `addr` in the bracket of the function or of the file, and fill in the rest. -/
def lineInfo (ops : DebugOps σ) (stabs : Stabs σ) (d : StabData) (end_of : Int × Int → Int)
    (lfile lfun rfun : Int) (line : Int × Int) (addr : Word) (info : Eipdebuginfo) :
    Prog σ (Word × Eipdebuginfo) := do
  -- Ignore stuff after the colon.
  let namelen ← nameLen ops.load info.eip_fn_name
  let info := { info with eip_fn_namelen := namelen }
  let line ← stabBinsearch stabs line.1 line.2 N_SLINE addr
  if line.1 ≤ line.2 then
    let desc ← stabs.n_desc (end_of line)
    let info := { info with eip_line := desc.toNat }
    let info ← fileInfo stabs d lfile line.1 info
    let info ← argsInfo stabs lfun rfun info
    pure (0, info)
  else
    pure (-1, info)

/-- Search the stabs for `addr`. -/
def searchStabs (ops : DebugOps σ) (stabs : Stabs σ) (d : StabData) (end_of : Int × Int → Int)
    (addr : Word) (info : Eipdebuginfo) : Prog σ (Word × Eipdebuginfo) := do
  let file ← stabBinsearch stabs 0 (d.count - 1).toInt N_SO addr
  if file.1 = 0 then
    pure (-1, info)
  else
    let func ← stabBinsearch stabs file.1 file.2 N_FUN addr
    if func.1 ≤ func.2 then
      let info ← functionInfo stabs d func.1 info
      lineInfo ops stabs d end_of file.1 func.1 func.2 func (addr - info.eip_fn_addr) info
    else
      lineInfo ops stabs d end_of file.1 func.1 func.2 file addr { info with eip_fn_addr := addr }

/-- Find the debugging information for `addr`. -/
def debuginfoEip (ops : DebugOps σ) (failed : Word → Bool) (end_of : Int × Int → Int) (addr : Word) :
    Prog σ (Word × Eipdebuginfo) := do
  let info : Eipdebuginfo := { eip_fn_addr := addr }
  let tables ← stabTables ops failed addr
  match tables with
  | none => pure (-1, info)
  | some d =>
      if d.stabstr_end ≤ d.stabstr then
        pure (-1, info)
      else
        let last ← ops.load (d.stabstr_end - 1)
        if last ≠ 0 then
          pure (-1, info)
        else
          searchStabs ops (stabsAt ops.load d.stabs) d end_of addr info

/-- `debuginfo_eip` of `Working/lab`: the line is that of `stabs[lline]`. -/
def debuginfo_eip (ops : DebugOps σ) (addr : Word) : Prog σ (Word × Eipdebuginfo) :=
  debuginfoEip ops isError Prod.fst addr

/-- `debuginfo_eip` of the root tree: the line is that of `stabs[rline]`. -/
def Root.debuginfo_eip (ops : DebugOps σ) (addr : Word) : Prog σ (Word × Eipdebuginfo) :=
  debuginfoEip ops (fun r => r != 0) Prod.snd addr

/-! ### Tables in memory -/

/-- The word at `va` in the memory `mem`. -/
def wordAt (mem : Word → Byte) (va : Word) : Word :=
  mem (va + 3) ++ mem (va + 2) ++ mem (va + 1) ++ mem va

/-- The stabs that the memory `mem` holds from the address `stabs` on. -/
def tableAt (mem : Word → Byte) (stabs : Word) (i : Int) : Stab where
  n_strx := wordAt mem (stabAddr stabs i)
  n_type := mem (stabAddr stabs i + 4)
  n_desc := mem (stabAddr stabs i + 6 + 1) ++ mem (stabAddr stabs i + 6)
  n_value := wordAt mem (stabAddr stabs i + 8)

/-- The states with `I` give the byte that the memory `mem` holds at `va`. -/
def Holds (load : Word → Prog σ Byte) (I : σ → Prop) (mem : Word → Byte) (va : Word) : Prop :=
  (load va).Gives I (fun v => v = mem va)

variable {load : Word → Prog σ Byte} {I : σ → Prop} {mem : Word → Byte} {va : Word}

theorem loadWord_gives (h : ∀ i < 4, Holds load I mem (va + BitVec.ofNat 32 i)) :
  (loadWord load va).Gives I (fun v => v = wordAt mem va)
  := by
  have h0 := h 0 (by omega)
  rw [show va + BitVec.ofNat 32 0 = va from BitVec.add_zero va] at h0
  apply h0.bind
  rintro _ rfl
  apply (h 1 (by omega)).bind
  rintro _ rfl
  apply (h 2 (by omega)).bind
  rintro _ rfl
  apply (h 3 (by omega)).bind
  rintro _ rfl
  apply gives_pure
  rfl

theorem loadHalf_gives (h : ∀ i < 2, Holds load I mem (va + BitVec.ofNat 32 i)) :
  (loadHalf load va).Gives I (fun v => v = mem (va + 1) ++ mem va)
  := by
  have h0 := h 0 (by omega)
  rw [show va + BitVec.ofNat 32 0 = va from BitVec.add_zero va] at h0
  apply h0.bind
  rintro _ rfl
  apply (h 1 (by omega)).bind
  rintro _ rfl
  apply gives_pure
  rfl

/-- Where the bytes of the stabs from `a` to `b` are given, so are the stabs. -/
theorem stabsAt_shows {stabs : Word} {a b : Int}
    (h : ∀ i, a ≤ i → i ≤ b → ∀ o < 12, Holds load I mem (stabAddr stabs i + BitVec.ofNat 32 o)) :
  (stabsAt load stabs).Shows I (tableAt mem stabs) a b
  := by
  have hfrom : ∀ i, a ≤ i → i ≤ b → ∀ k n, k + n ≤ 12 → ∀ o < n,
      Holds load I mem (stabAddr stabs i + BitVec.ofNat 32 k + BitVec.ofNat 32 o) := by
    intro i hi hi' k n hkn o ho
    rw [BitVec.add_assoc, ← BitVec.ofNat_add]
    apply h i hi hi'
    omega
  constructor
  case strx =>
    intro i hi hi'
    apply loadWord_gives
    intro o ho
    apply h i hi hi' o (by omega)
  case type =>
    intro i hi hi'
    apply h i hi hi' 4 (by omega)
  case desc =>
    intro i hi hi'
    apply loadHalf_gives (hfrom i hi hi' 6 2 (by omega))
  case value =>
    intro i hi hi'
    apply loadWord_gives (hfrom i hi hi' 8 4 (by omega))

/-! ### What is filled in -/

/-- The string is not one in memory, or it begins in the table of strings. -/
def InStrings (d : StabData) : DebugName → Prop
  | .unknown => True
  | .at s => s - d.stabstr < d.stabstr_end - d.stabstr

theorem inStrings_stringOr {d : StabData} {name : DebugName} (strx : Word) (h : InStrings d name) :
  InStrings d (stringOr d strx name)
  := by
  rw [stringOr]
  split
  case isTrue hlt =>
    change d.stabstr + strx - d.stabstr < _
    rw [BitVec.add_comm, BitVec.add_sub_cancel]
    apply hlt
  case isFalse => apply h

variable {stabs : Stabs σ} {tab : Int → Stab} {a b : Int} {d : StabData} {info : Eipdebuginfo}

theorem sourceDown_gives (h : stabs.Shows I tab a b) (n : Nat) {m : Int} (hm : m ≤ b)
    (ha : a ≤ m - n + 1) :
  (sourceDown stabs n m).Gives I (fun r => ∀ i, r = some i → a ≤ i ∧ i ≤ b)
  := by
  induction n generalizing m with
  | zero =>
      apply gives_pure
      intro i hi
      cases hi
  | succ n ih =>
      have hnext := ih (m := m - 1) (by omega) (by omega)
      have hfound : ∀ i, some m = some i → a ≤ i ∧ i ≤ b := by
        intro i hi
        rcases Option.some.inj hi with rfl
        constructor
        · omega
        · apply hm
      apply (h.type m (by omega) hm).bind
      intro t _
      apply gives_ite
      · intro _
        apply gives_pure hfound
      · intro _
        apply gives_ite
        · intro _
          apply (h.value m (by omega) hm).bind
          intro v _
          apply gives_ite
          · exact fun _ => hnext
          · exact fun _ => gives_pure hfound
        · exact fun _ => hnext

theorem countArgs_gives (h : stabs.Shows I tab a b) (n : Nat) {i : Int} (ha : a ≤ i)
    (hb : i + n ≤ b + 1) :
  (countArgs stabs n i).Gives I (fun _ => True)
  := by
  induction n generalizing i with
  | zero => apply gives_pure trivial
  | succ n ih =>
      apply (h.type i ha (by omega)).bind
      intro t _
      apply gives_ite
      · intro _
        apply (ih (i := i + 1) (by omega) (by omega)).bind
        intro k _
        apply gives_pure trivial
      · intro _
        apply gives_pure trivial

theorem functionInfo_gives (h : stabs.Shows I tab a b) {lfun : Int} (ha : a ≤ lfun) (hb : lfun ≤ b) :
  (functionInfo stabs d lfun info).Gives I (fun info' => info' = { info with
    eip_fn_name := stringOr d (tab lfun).n_strx info.eip_fn_name, eip_fn_addr := (tab lfun).n_value })
  := by
  apply (h.strx lfun ha hb).bind
  rintro _ rfl
  apply (h.value lfun ha hb).bind
  rintro _ rfl
  apply gives_pure
  rfl

/-- The source file is a string of the table, if it is filled in. -/
theorem fileInfo_gives (h : stabs.Shows I tab a b) {lfile lline : Int} (ha : a ≤ lfile)
    (hle : lfile ≤ lline + 1) (hb : lline ≤ b) :
  (fileInfo stabs d lfile lline info).Gives I (fun info' => ∃ name, info' = { info with eip_file := name }
    ∧ (InStrings d info.eip_file → InStrings d name))
  := by
  apply (sourceDown_gives h (lline - lfile + 1).toNat hb (by omega)).bind
  intro m hm
  cases m with
  | none =>
      apply gives_pure
      exact ⟨info.eip_file, rfl, id⟩
  | some m =>
      rcases hm m rfl with ⟨hma, hmb⟩
      apply (h.strx m hma hmb).bind
      intro strx _
      apply gives_pure
      exact ⟨_, rfl, inStrings_stringOr strx⟩

theorem argsInfo_gives (h : stabs.Shows I tab a b) {lfun rfun : Int} (ha : a ≤ lfun + 1)
    (hb : rfun ≤ b + 1) :
  (argsInfo stabs lfun rfun info).Gives I (fun info' => ∃ n, info' = { info with eip_fn_narg := n })
  := by
  apply gives_ite
  · intro hlt
    apply (countArgs_gives h (rfun - lfun - 1).toNat ha (by omega)).bind
    intro n _
    apply gives_pure
    exact ⟨n, rfl⟩
  · intro _
    apply gives_pure
    exact ⟨info.eip_fn_narg, rfl⟩

/-- The bytes of the table of strings are given, and the last one is zero. -/
structure Strings (load : Word → Prog σ Byte) (I : σ → Prop) (mem : Word → Byte) (d : StabData) :
    Prop where
  lt : d.stabstr < d.stabstr_end
  bytes : ∀ j < (d.stabstr_end - d.stabstr).toNat, Holds load I mem (d.stabstr + BitVec.ofNat 32 j)
  zero : mem (d.stabstr_end - 1) = 0

namespace StabData

variable (hlt : d.stabstr < d.stabstr_end)
include hlt

theorem length_pos :
  0 < (d.stabstr_end - d.stabstr).toNat
  := by
  have hend := d.stabstr_end.isLt
  rw [BitVec.lt_def] at hlt
  rw [BitVec.toNat_sub]
  omega

/-- The last byte of the table of strings. -/
theorem place_last :
  d.stabstr + BitVec.ofNat 32 ((d.stabstr_end - d.stabstr).toNat - 1) = d.stabstr_end - 1
  := by
  have hend := d.stabstr_end.isLt
  have hone : (1 : Word).toNat = 1 := rfl
  rw [BitVec.lt_def] at hlt
  apply BitVec.eq_of_toNat_eq
  rw [BitVec.toNat_add, BitVec.toNat_ofNat, BitVec.toNat_sub, BitVec.toNat_sub, hone]
  omega

theorem holds_last (hbytes : ∀ j < (d.stabstr_end - d.stabstr).toNat,
    Holds load I mem (d.stabstr + BitVec.ofNat 32 j)) :
  Holds load I mem (d.stabstr_end - 1)
  := by
  have hpos := length_pos hlt
  have hlast := hbytes ((d.stabstr_end - d.stabstr).toNat - 1) (by omega)
  rw [place_last hlt] at hlast
  apply hlast

end StabData

/-- A string that begins in the table ends in it. -/
theorem nameLen_gives (h : Strings load I mem d) {name : DebugName} (hname : InStrings d name) :
  (nameLen load name).Gives I (fun _ => True)
  := by
  cases name with
  | unknown => apply gives_pure trivial
  | «at» s =>
      have hplace : (s - d.stabstr).toNat < (d.stabstr_end - d.stabstr).toNat := hname
      obtain ⟨o, ho⟩ : ∃ o, o = (s - d.stabstr).toNat := ⟨_, rfl⟩
      have hs : s = d.stabstr + BitVec.ofNat 32 o := by
        rw [ho, BitVec.ofNat_toNat, BitVec.setWidth_eq, BitVec.add_comm, BitVec.sub_add_cancel]
      rw [← ho] at hplace
      have hlt := (d.stabstr_end - d.stabstr).isLt
      have hscan : (skipUp 0 (2 ^ 32) (fun i => do
          let ch ← load (s + BitVec.ofNat 32 i)
          pure (ch ≠ 0 ∧ ch ≠ 0x3a) : Nat → Prog σ Bool)).Gives I
          (fun k => 0 ≤ k ∧ k ≤ (d.stabstr_end - d.stabstr).toNat - 1 - o) := by
        apply gives_skipUp (Nat.zero_le _) (by omega)
        intro i _ hi
        have hbyte := h.bytes (o + i) (by omega)
        rw [BitVec.ofNat_add, ← BitVec.add_assoc, ← hs] at hbyte
        apply hbyte.bind
        rintro _ rfl
        apply gives_pure
        rintro rfl
        have hlast : s + BitVec.ofNat 32 ((d.stabstr_end - d.stabstr).toNat - 1 - o)
            = d.stabstr_end - 1 := by
          rw [hs, BitVec.add_assoc, ← BitVec.ofNat_add,
            show o + ((d.stabstr_end - d.stabstr).toNat - 1 - o)
              = (d.stabstr_end - d.stabstr).toNat - 1 by omega, StabData.place_last h.lt]
        rw [hlast, h.zero]
        rfl
      apply hscan.bind
      intro k _
      apply gives_pure trivial

/-! ### Lines of well-formed tables -/

/-- From the stab `i` to `e` there is no further one of the type, but behind `e` there is one, unless
`e` is the end `b`. -/
structure Stretch (tab : Int → Stab) (type : Byte) (i b e : Int) : Prop where
  le : i ≤ e
  within : e ≤ b
  none : NoneIn (Typed tab type) (i + 1) e
  next : e = b ∨ Typed tab type (e + 1)

theorem Stretch.unique {type : Byte} {i e e' : Int} (h : Stretch tab type i b e)
    (h' : Stretch tab type i b e') :
  e = e'
  := by
  have hle := h.le
  have hle' := h'.le
  have hb := h.within
  have hb' := h'.within
  rcases Int.lt_trichotomy e e' with hlt | heq | hgt
  · rcases h.next with hend | htype
    · omega
    · apply (h'.none (e + 1) (by omega) (by omega) htype).elim
  · apply heq
  · rcases h'.next with hend | htype
    · omega
    · apply (h.none (e' + 1) (by omega) (by omega) htype).elim

/-- Where there is a stab for the address, the search finds it and the stretch behind it. -/
theorem Brackets.eq {type : Byte} {addr : Word} {i e : Int} {p : Int × Int}
    (h : Brackets tab type a b addr p) (hi : LastIn (AtMost tab type addr) a b i)
    (he : Stretch tab type i b e) :
  p = (i, e)
  := by
  cases h with
  | found left right hlast hle hright hnone hnext =>
      rcases hlast.unique hi with rfl
      rw [he.unique ⟨hle, hright, hnone, hnext⟩]
  | absent hnone => apply (hnone i hi.lo hi.hi hi.holds.1).elim
  | behind left right ha hb htype hnone hle hleft => apply (hnone i hi.lo hi.hi hi.holds).elim

/-- Where there is a stab for the address, the search ends with it and with the stretch behind it,
unless the address cannot be made larger. -/
theorem stabBinsearch_located {type : Byte} {addr : Word} {i e : Int} (hshows : stabs.Shows I tab a b)
    (hsorted : Sorted tab type a b) (hi : LastIn (AtMost tab type addr) a b i)
    (he : Stretch tab type i b e) :
  (stabBinsearch stabs a b type addr).Gives I (fun q =>
    q = if AtTop tab i addr then (i - 1, i - 1) else (i, e))
  := by
  split
  case isTrue htop => apply stabBinsearch_wraps hshows hsorted hi htop
  case isFalse htop =>
    apply (stabBinsearch_gives hshows hsorted (noWrap_of_not_atTop hsorted hi htop)).mono
    intro q hq
    apply hq.eq hi he

/-- The table of stabs is well formed: the first entry is a header, and the stabs of a type increase
by address, those for lines within a function. -/
structure WellFormed (tab : Int → Stab) (n : Int) : Prop where
  header : (tab 0).n_type ≠ N_SO
  files : Sorted tab N_SO 0 (n - 1)
  functions : Sorted tab N_FUN 0 (n - 1)
  lines : ∀ f e, 0 ≤ f → e ≤ n - 1 → Typed tab N_FUN f → NoneIn (Typed tab N_FUN) (f + 1) e →
    NoneIn (Typed tab N_SO) (f + 1) e → Sorted tab N_SLINE f e

/-- The places of an address: the stabs of its source file, of its function and of its line, each with
the end of its stretch. -/
structure Places where
  file : Int
  file_end : Int
  func : Int
  func_end : Int
  line : Int
  line_end : Int

/-- The address is inside a function, and there is a line in it at or below the address. -/
structure Located (tab : Int → Stab) (n : Int) (eip : Word) (p : Places) : Prop where
  file : LastIn (AtMost tab N_SO eip) 0 (n - 1) p.file
  file_end : Stretch tab N_SO p.file (n - 1) p.file_end
  func : LastIn (AtMost tab N_FUN eip) p.file p.file_end p.func
  func_end : Stretch tab N_FUN p.func p.file_end p.func_end
  line : LastIn (AtMost tab N_SLINE (eip - (tab p.func).n_value)) p.func p.func_end p.line
  line_end : Stretch tab N_SLINE p.line p.func_end p.line_end

theorem Located.bounds {n : Int} {eip : Word} {p : Places} (hl : Located tab n eip p) :
  0 ≤ p.file ∧ p.file ≤ p.func ∧ p.func ≤ p.line ∧ p.line ≤ p.line_end ∧ p.line_end ≤ p.func_end
    ∧ p.func_end ≤ p.file_end ∧ p.file_end ≤ n - 1
  := ⟨hl.file.lo, hl.func.lo, hl.line.lo, hl.line_end.le, hl.line_end.within, hl.func_end.within,
    hl.file_end.within⟩

/-- A stab is of one type. -/
theorem Typed.ne {type type' : Byte} {i j : Int} (h : Typed tab type i) (h' : Typed tab type' j)
    (hne : type ≠ type') :
  i ≠ j
  := by
  rintro rfl
  apply hne (h.symm.trans h')

section

variable {n : Int} {eip : Word} {p : Places} (hl : Located tab n eip p)
include hl

theorem Located.file_pos (hw : WellFormed tab n) :
  0 < p.file
  := by
  have hne : p.file ≠ 0 := by
    intro heq
    apply hw.header
    rw [← heq]
    apply hl.file.holds.1
  have hle := hl.file.lo
  omega

theorem Located.file_lt :
  p.file < p.func
  := by
  have hne := hl.file.holds.1.ne hl.func.holds.1 (by decide)
  have hle := hl.func.lo
  omega

theorem Located.func_lt :
  p.func < p.line
  := by
  have hne := hl.func.holds.1.ne hl.line.holds.1 (by decide)
  have hle := hl.line.lo
  omega

end

/-- In front of a file at the largest address a function is at a smaller one. -/
theorem single_function_beforeFile {n : Int} {eip : Word} {p : Places} (hw : WellFormed tab n)
    (hl : Located tab n eip p) (hfile : AtTop tab p.file eip)
    (htype : Typed tab N_FUN (p.file - 1)) :
  single tab N_FUN eip (p.file - 1) = (p.file - 1, p.file - 1)
  := by
  rcases Located.bounds hl with ⟨h0, h1, h2, h3, h4, h5, h6⟩
  have hpos := Located.file_pos hl hw
  have hgap := hw.functions (p.file - 1) p.func (by omega) (by omega) (by omega) htype
    hl.func.holds.1
  have hlt := (tab p.func).n_value.isLt
  have hmax := hfile.toNat.1
  rw [single, if_pos htype, if_pos]
  use (by omega)
  intro htop
  have hvalue := htop.toNat.2
  omega

/-- The address, looked up at the given places, finds its line.  As a rule the search ends with the
bracket from `p.line` to `p.line_end`, and `shown` is the end of it from which the line is taken.  Only
where the largest address of all hits a stab the search ends in front of that stab, and the line is
right by chance. -/
def Right (tab : Int → Stab) (eip : Word) (p : Places) (shown : Int) : Prop :=
  if AtTop tab p.file eip then
    p.file ≠ 1 ∧ Typed tab N_SLINE (p.file - 1) ∧ (tab p.func).n_value = eip
      ∧ (tab (if AtTop tab (p.file - 1) eip then p.file - 2 else p.file - 1)).n_desc
        = (tab p.line).n_desc
  else if AtTop tab p.func eip then
    Typed tab N_SLINE (p.func - 1) ∧ (tab (p.func - 1)).n_value = eip
      ∧ (tab (p.func - 2)).n_desc = (tab p.line).n_desc
  else if AtTop tab p.line (eip - (tab p.func).n_value) then
    (tab (p.line - 1)).n_desc = (tab p.line).n_desc
  else
    (tab shown).n_desc = (tab p.line).n_desc

instance (tab : Int → Stab) (eip : Word) (p : Places) (shown : Int) :
    Decidable (Right tab eip p shown) :=
  inferInstanceAs (Decidable (ite _ _ _))

/-- The line and the function are the right ones. -/
structure Correct (tab : Int → Stab) (p : Places) (r : Word × Eipdebuginfo) : Prop where
  found : r.1 = 0
  line : r.2.eip_line = (tab p.line).n_desc.toNat
  fn_addr : r.2.eip_fn_addr = (tab p.func).n_value

/-- What becomes of a search for the line that ends with the bracket `q`. -/
structure Finds (tab : Int → Stab) (end_of : Int × Int → Int) (fn_addr : Word) (q : Int × Int)
    (r : Word × Eipdebuginfo) : Prop where
  found : q.1 ≤ q.2 → r.1 = 0 ∧ r.2.eip_line = (tab (end_of q)).n_desc.toNat
  none : q.2 < q.1 → r.1 = -1
  fn_addr : r.2.eip_fn_addr = fn_addr

theorem Finds.correct_iff {end_of : Int × Int → Int} {fn_addr : Word} {q : Int × Int} {p : Places}
    {r : Word × Eipdebuginfo} (h : Finds tab end_of fn_addr q r) :
  Correct tab p r ↔ fn_addr = (tab p.func).n_value ∧ q.1 ≤ q.2
    ∧ (tab (end_of q)).n_desc = (tab p.line).n_desc
  := by
  constructor
  · rintro ⟨hfound, hline, hfn⟩
    have hle : q.1 ≤ q.2 := by
      rcases Int.lt_or_le q.2 q.1 with hlt | hle
      · rw [h.none hlt] at hfound
        cases hfound
      · apply hle
    refine ⟨h.fn_addr.symm.trans hfn, hle, BitVec.eq_of_toNat_eq ?_⟩
    rw [(h.found hle).2] at hline
    apply Int.ofNat_inj.mp hline
  · rintro ⟨hfn, hle, hdesc⟩
    constructor
    case found => apply (h.found hle).1
    case line =>
      rw [(h.found hle).2, hdesc]
    case fn_addr => apply h.fn_addr.trans hfn

section Lines

variable {ops : DebugOps σ} {n : Int} {eip : Word} {p : Places} {end_of : Int × Int → Int}
  (hshows : stabs.Shows I tab 0 (n - 1)) (hstrings : Strings ops.load I mem d)
  (hend : ∀ q, end_of q = q.1 ∨ end_of q = q.2)
include hshows hstrings hend

/-- The line that is reported is that of the stab at one end of the bracket, and the strings are those
of the table. -/
theorem lineInfo_gives {lfile lfun rfun : Int} {line : Int × Int} {addr : Word}
    {Q : Int × Int → Prop} (hfile : 0 ≤ lfile) (hlfun : 0 ≤ lfun) (hrfun : rfun ≤ n)
    (hname : InStrings d info.eip_fn_name)
    (hsearch : (stabBinsearch stabs line.1 line.2 N_SLINE addr).Gives I Q)
    (hq : ∀ q, Q q → q.1 ≤ q.2 → 0 ≤ q.1 ∧ lfile ≤ q.1 + 1 ∧ q.2 ≤ n - 1) :
  (lineInfo ops stabs d end_of lfile lfun rfun line addr info).Gives I (fun r =>
    (∃ q, Q q ∧ Finds tab end_of info.eip_fn_addr q r)
      ∧ (InStrings d info.eip_file → InStrings d r.2.eip_file)
      ∧ r.2.eip_fn_name = info.eip_fn_name)
  := by
  apply (nameLen_gives hstrings hname).bind
  intro namelen _
  apply hsearch.bind
  intro q hQ
  apply gives_ite
  · intro hle
    rcases hq q hQ hle with ⟨h0, hlow, hhigh⟩
    have hplace : 0 ≤ end_of q ∧ end_of q ≤ n - 1 := by
      rcases hend q with heq | heq
      · omega
      · omega
    apply (hshows.desc _ hplace.1 hplace.2).bind
    rintro _ rfl
    apply (fileInfo_gives hshows hfile hlow (Int.le_trans hle hhigh)).bind
    rintro _ ⟨name, rfl, hfilename⟩
    apply (argsInfo_gives hshows (by omega) (by omega)).bind
    rintro _ ⟨k, rfl⟩
    apply gives_pure
    refine ⟨⟨q, hQ, ?_⟩, hfilename, rfl⟩
    exact ⟨fun _ => ⟨rfl, rfl⟩, fun hlt => (Int.not_le.mpr hlt hle).elim, rfl⟩
  · intro hgt
    apply gives_pure
    refine ⟨⟨q, hQ, ?_⟩, id, rfl⟩
    exact ⟨fun hle => (hgt hle).elim, fun _ => rfl, rfl⟩

/-- The case of a search that can end in one way only. -/
theorem lineInfo_finds {lfile lfun rfun : Int} {line q : Int × Int} {addr : Word}
    (hfile : 0 ≤ lfile) (hlfun : 0 ≤ lfun) (hrfun : rfun ≤ n) (hname : InStrings d info.eip_fn_name)
    (hsearch : (stabBinsearch stabs line.1 line.2 N_SLINE addr).Gives I (fun r => r = q))
    (hq : q.1 ≤ q.2 → 0 ≤ q.1 ∧ lfile ≤ q.1 + 1 ∧ q.2 ≤ n - 1) :
  (lineInfo ops stabs d end_of lfile lfun rfun line addr info).Gives I
    (Finds tab end_of info.eip_fn_addr q)
  := by
  apply (lineInfo_gives hshows hstrings hend hfile hlfun hrfun hname hsearch _).mono
  · rintro r ⟨⟨_, rfl, hr⟩, -⟩
    apply hr
  · rintro _ rfl
    apply hq

/-- A search for the line in the one stab `i`. -/
theorem lineInfo_single {lfile lfun rfun i : Int} {addr : Word} (hfile : 0 ≤ lfile)
    (hlfun : 0 ≤ lfun) (hrfun : rfun ≤ n) (hname : InStrings d info.eip_fn_name) (hi : 1 ≤ i)
    (hle : lfile ≤ i) (hin : i ≤ n - 1) :
  (lineInfo ops stabs d end_of lfile lfun rfun (i, i) addr info).Gives I
    (Finds tab end_of info.eip_fn_addr (single tab N_SLINE addr i))
  := by
  apply lineInfo_finds hshows hstrings hend hfile hlfun hrfun hname
  · apply stabBinsearch_single (hshows.within (Int.le_trans (by decide) hi) hin)
  · rw [single]
    split
    case isTrue =>
      split
      case isTrue => omega
      case isFalse => omega
    case isFalse => omega

variable (hcount : (d.count - 1).toInt = n - 1) (hw : WellFormed tab n) (hl : Located tab n eip p)
include hw hl

/-- The search in the function. -/
theorem lineInfo_located (hname : InStrings d info.eip_fn_name)
    (hfn : info.eip_fn_addr = (tab p.func).n_value) (hfile : ¬ AtTop tab p.file eip)
    (hfunc : ¬ AtTop tab p.func eip) :
  (lineInfo ops stabs d end_of p.file p.func p.func_end (p.func, p.func_end)
      (eip - info.eip_fn_addr) info).Gives I (fun r =>
    Correct tab p r ↔ Right tab eip p (end_of (p.line, p.line_end)))
  := by
  rcases Located.bounds hl with ⟨h0, h1, h2, h3, h4, h5, h6⟩
  have hlines : Sorted tab N_SLINE p.func p.func_end := by
    apply hw.lines p.func p.func_end (by omega) (by omega) hl.func.holds.1 hl.func_end.none
    apply hl.file_end.none.within (by omega) h5
  have hline := Located.func_lt hl
  rw [hfn]
  apply (lineInfo_finds hshows hstrings hend h0 (by omega) (by omega) hname
    (stabBinsearch_located (hshows.within (by omega) (by omega)) hlines hl.line hl.line_end) _).mono
  · intro r hr
    rw [hr.correct_iff, Right, if_neg hfile, if_neg hfunc]
    split
    case isTrue =>
      have hone : end_of (p.line - 1, p.line - 1) = p.line - 1 := (hend _).elim id id
      rw [hone]
      constructor
      · exact fun h => h.2.2
      · exact fun h => ⟨hfn, Int.le_refl _, h⟩
    case isFalse =>
      constructor
      · exact fun h => h.2.2
      · exact fun h => ⟨hfn, h3, h⟩
  · split
    case isTrue =>
      intro _
      change 0 ≤ p.line - 1 ∧ p.file ≤ p.line - 1 + 1 ∧ p.line - 1 ≤ n - 1
      omega
    case isFalse =>
      intro _
      change 0 ≤ p.line ∧ p.file ≤ p.line + 1 ∧ p.line_end ≤ n - 1
      omega

/-- The search for the function ended in front of it. -/
theorem lineInfo_beforeFunction (hname : InStrings d info.eip_fn_name)
    (hfn : info.eip_fn_addr = (tab (p.func - 1)).n_value) (hfile : ¬ AtTop tab p.file eip)
    (hfunc : AtTop tab p.func eip) :
  (lineInfo ops stabs d end_of p.file (p.func - 1) (p.func - 1) (p.func - 1, p.func - 1)
      (eip - info.eip_fn_addr) info).Gives I (fun r =>
    Correct tab p r ↔ Right tab eip p (end_of (p.line, p.line_end)))
  := by
  rcases Located.bounds hl with ⟨h0, h1, h2, h3, h4, h5, h6⟩
  have hpos := Located.file_pos hl hw
  have hlt := Located.file_lt hl
  have hback : Typed tab N_SLINE (p.func - 1) → (tab (p.func - 1)).n_value = eip →
      single tab N_SLINE (eip - (tab (p.func - 1)).n_value) (p.func - 1)
        = (p.func - 2, p.func - 2) := by
    intro htype hvalue
    rw [single, if_pos htype, hvalue, BitVec.sub_self, if_neg]
    · rw [Int.sub_sub]
      rfl
    · rintro ⟨hle, -⟩
      rw [hfunc.1] at hle
      revert hle
      decide
  have hone : end_of (p.func - 2, p.func - 2) = p.func - 2 := (hend _).elim id id
  apply (lineInfo_single hshows hstrings hend h0 (by omega) (by omega) hname (by omega) (by omega)
    (by omega)).mono
  intro r hr
  rw [hr.correct_iff, Right, if_neg hfile, if_pos hfunc, hfn, hfunc.2]
  constructor
  · rintro ⟨hvalue, hle, hdesc⟩
    by_cases htype : Typed tab N_SLINE (p.func - 1)
    · rw [hback htype hvalue, hone] at hdesc
      exact ⟨htype, hvalue, hdesc⟩
    · rw [single, if_neg htype] at hle
      omega
  · rintro ⟨htype, hvalue, hdesc⟩
    rw [hback htype hvalue, hone]
    exact ⟨hvalue, Int.le_refl _, hdesc⟩

/-- The search for the file ended in front of it: then the line is looked up in the one stab there. -/
theorem lineInfo_beforeFile (hname : InStrings d info.eip_fn_name) (hfn : info.eip_fn_addr = eip)
    (hfile : AtTop tab p.file eip) (hne : p.file ≠ 1) :
  (lineInfo ops stabs d end_of (p.file - 1) (p.file - 1) (p.file - 2) (p.file - 1, p.file - 1)
      eip info).Gives I (fun r =>
    Correct tab p r ↔ Right tab eip p (end_of (p.line, p.line_end)))
  := by
  rcases Located.bounds hl with ⟨h0, h1, h2, h3, h4, h5, h6⟩
  have hpos := Located.file_pos hl hw
  have hsingle : Typed tab N_SLINE (p.file - 1) → single tab N_SLINE eip (p.file - 1)
      = if AtTop tab (p.file - 1) eip then (p.file - 2, p.file - 2) else (p.file - 1, p.file - 1) := by
    intro htype
    have hlt := (tab (p.file - 1)).n_value.isLt
    have hmax := hfile.toNat.1
    rw [single, if_pos htype, Int.sub_sub]
    split
    case isTrue h => rw [if_neg h.2]
    case isFalse h =>
      rw [if_pos]
      · rfl
      · by_contra htop
        apply h
        exact ⟨by omega, htop⟩
  have hone : ∀ i, end_of (i, i) = i := fun i => (hend (i, i)).elim id id
  apply (lineInfo_single hshows hstrings hend (by omega) (by omega) (by omega) hname (by omega)
    (by omega) (by omega)).mono
  intro r hr
  rw [hr.correct_iff, Right, if_pos hfile, hfn]
  constructor
  · rintro ⟨hvalue, hle, hdesc⟩
    by_cases htype : Typed tab N_SLINE (p.file - 1)
    · refine ⟨hne, htype, hvalue.symm, ?_⟩
      rw [hsingle htype] at hdesc
      split
      case isTrue htop =>
        rw [if_pos htop, hone] at hdesc
        apply hdesc
      case isFalse htop =>
        rw [if_neg htop, hone] at hdesc
        apply hdesc
    · rw [single, if_neg htype] at hle
      omega
  · rintro ⟨-, htype, hvalue, hdesc⟩
    use hvalue.symm
    rw [hsingle htype]
    split
    case isTrue htop =>
      rw [if_pos htop] at hdesc
      rw [hone]
      exact ⟨Int.le_refl _, hdesc⟩
    case isFalse htop =>
      rw [if_neg htop] at hdesc
      rw [hone]
      exact ⟨Int.le_refl _, hdesc⟩

/-- There the stab is of no line if it is that of a function. -/
theorem lineInfo_functionBeforeFile {addr : Word} (hname : InStrings d info.eip_fn_name)
    (hfile : AtTop tab p.file eip) (hne : p.file ≠ 1) (htype : Typed tab N_FUN (p.file - 1)) :
  (lineInfo ops stabs d end_of (p.file - 1) (p.file - 1) (p.file - 1) (p.file - 1, p.file - 1)
      addr info).Gives I (fun r =>
    Correct tab p r ↔ Right tab eip p (end_of (p.line, p.line_end)))
  := by
  rcases Located.bounds hl with ⟨h0, h1, h2, h3, h4, h5, h6⟩
  have hpos := Located.file_pos hl hw
  have hline : ¬ Typed tab N_SLINE (p.file - 1) :=
    fun hline => htype.ne hline (by decide) rfl
  apply (lineInfo_single hshows hstrings hend (by omega) (by omega) (by omega) hname (by omega)
    (by omega) (by omega)).mono
  intro r hr
  rw [hr.correct_iff, Right, if_pos hfile, single, if_neg hline]
  constructor
  · rintro ⟨-, hle, -⟩
    omega
  · exact fun h => (hline h.2.1).elim

include hcount in
/-- The search finds the file, the function and the line, or ends in front of one of them. -/
theorem searchStabs_gives (hname : InStrings d info.eip_fn_name) :
  (searchStabs ops stabs d end_of eip info).Gives I (fun r =>
    Correct tab p r ↔ Right tab eip p (end_of (p.line, p.line_end)))
  := by
  rcases Located.bounds hl with ⟨h0, h1, h2, h3, h4, h5, h6⟩
  have hpos := Located.file_pos hl hw
  rw [searchStabs, hcount]
  apply (stabBinsearch_located hshows hw.files hl.file hl.file_end).bind
  intro file hfile
  by_cases htop : AtTop tab p.file eip
  · rw [hfile, if_pos htop]
    apply gives_ite
    · intro hzero
      have hone : p.file = 1 := by
        change p.file - 1 = 0 at hzero
        omega
      apply gives_pure
      rw [Right, if_pos htop]
      constructor
      · rintro ⟨hfound, -, -⟩
        cases hfound
      · exact fun h => (h.1 hone).elim
    · intro hzero
      have hne : p.file ≠ 1 := by
        change ¬ p.file - 1 = 0 at hzero
        omega
      have hshow : stabs.Shows I tab (p.file - 1) (p.file - 1) :=
        hshows.within (by omega) (by omega)
      apply (stabBinsearch_single hshow).bind
      intro func hfunc
      by_cases htype : Typed tab N_FUN (p.file - 1)
      · rw [hfunc, single_function_beforeFile hw hl htop htype]
        apply gives_ite
        · intro _
          apply (functionInfo_gives hshows (by omega) (by omega)).bind
          rintro _ rfl
          apply lineInfo_functionBeforeFile hshows hstrings hend hw hl
            (inStrings_stringOr _ hname) htop hne htype
        · intro hgt
          apply (hgt (Int.le_refl _)).elim
      · rw [hfunc, single, if_neg htype]
        apply gives_ite
        · intro hle
          omega
        · intro _
          rw [Int.sub_sub]
          apply lineInfo_beforeFile hshows hstrings hend hw hl _ rfl htop hne
          apply hname
  · rw [hfile, if_neg htop]
    apply gives_ite
    · intro hzero
      change p.file = 0 at hzero
      omega
    · intro _
      have hfunctions : Sorted tab N_FUN p.file p.file_end :=
        fun i j hi hij hj => hw.functions i j (by omega) hij (by omega)
      apply (stabBinsearch_located (hshows.within h0 h6) hfunctions hl.func hl.func_end).bind
      intro func hfunc
      by_cases htop' : AtTop tab p.func eip
      · rw [hfunc, if_pos htop']
        apply gives_ite
        · intro _
          apply (functionInfo_gives hshows (by omega) (by omega)).bind
          rintro _ rfl
          apply lineInfo_beforeFunction hshows hstrings hend hw hl
            (inStrings_stringOr _ hname) rfl htop htop'
        · intro hgt
          apply (hgt (Int.le_refl _)).elim
      · rw [hfunc, if_neg htop']
        apply gives_ite
        · intro _
          apply (functionInfo_gives hshows (by omega) (by omega)).bind
          rintro _ rfl
          apply lineInfo_located hshows hstrings hend hw hl
            (inStrings_stringOr _ hname) rfl htop htop'
        · intro hgt
          apply (hgt (Int.le_trans h2 (Int.le_trans h3 h4))).elim

end Lines

/-! ### What both kernels report -/

/-- The tables for an address: those of the kernel, or those that the user program describes in the
memory `mem`. -/
def dataAt (ops : DebugOps σ) (mem : Word → Byte) (eip : Word) : StabData :=
  if eip.toNat ≥ ULIM then
    ⟨ops.STAB_BEGIN, ops.STAB_END, ops.STABSTR_BEGIN, ops.STABSTR_END⟩
  else
    ⟨wordAt mem USTABDATA, wordAt mem (USTABDATA + 4), wordAt mem (USTABDATA + 8),
      wordAt mem (USTABDATA + 12)⟩

/-- In the state `s` all checks of the memory of the user program succeed, and its description of
the tables may be read. -/
structure Described (ops : DebugOps σ) (s : σ) (mem : Word → Byte) (d : StabData) : Prop where
  usd : (ops.user_mem_check USTABDATA sizeofUserStabData).Gives (fun s' => s' = s) (fun r => r = 0)
  stabs : (ops.user_mem_check d.stabs d.count).Gives (fun s' => s' = s) (fun r => r = 0)
  strings : (ops.user_mem_check d.stabstr (d.stabstr_end - d.stabstr)).Gives (fun s' => s' = s)
    (fun r => r = 0)
  bytes : ∀ i < 16, Holds ops.load (fun s' => s' = s) mem (USTABDATA + BitVec.ofNat 32 i)

/-- In the state `s` the tables for an address may be read. They are well formed, and the address is at
the given places. -/
structure Tables (ops : DebugOps σ) (s : σ) (mem : Word → Byte) (eip : Word) (p : Places) :
    Prop where
  user : eip.toNat < ULIM → Described ops s mem (dataAt ops mem eip)
  bytes : ∀ i, 0 ≤ i → i ≤ (dataAt ops mem eip).count.toInt - 1 → ∀ o < 12,
    Holds ops.load (fun s' => s' = s) mem
      (stabAddr (dataAt ops mem eip).stabs i + BitVec.ofNat 32 o)
  strings : Strings ops.load (fun s' => s' = s) mem (dataAt ops mem eip)
  stabs : WellFormed (tableAt mem (dataAt ops mem eip).stabs) (dataAt ops mem eip).count.toInt
  located : Located (tableAt mem (dataAt ops mem eip).stabs) (dataAt ops mem eip).count.toInt eip p

/-- In the state `s` the call finds the line and the function of the address. -/
def Reports (call : Prog σ (Word × Eipdebuginfo)) (s : σ) (tab : Int → Stab) (p : Places) : Prop :=
  ∃ r s', call s = .ok (r, s') ∧ Correct tab p r

/-- Both kernels find the line and the function of the address. -/
structure Agree (ops : DebugOps σ) (s : σ) (mem : Word → Byte) (eip : Word) (p : Places) : Prop where
  lab : Reports (debuginfo_eip ops eip) s (tableAt mem (dataAt ops mem eip).stabs) p
  root : Reports (Root.debuginfo_eip ops eip) s (tableAt mem (dataAt ops mem eip).stabs) p

variable {ops : DebugOps σ} {s : σ} {eip : Word} {p : Places}

/-- The tables of a user program are found if all three checks pass, and only then. -/
theorem stabTables_user {failed : Word → Bool} {pass : Word → Word → Prop}
    (hd : d = dataAt ops mem eip) (hlow : eip.toNat < ULIM)
    (husd : (ops.user_mem_check USTABDATA sizeofUserStabData).Gives I
      (fun r => failed r = false ↔ pass USTABDATA sizeofUserStabData))
    (hstabs : (ops.user_mem_check d.stabs d.count).Gives I
      (fun r => failed r = false ↔ pass d.stabs d.count))
    (hstrings : (ops.user_mem_check d.stabstr (d.stabstr_end - d.stabstr)).Gives I
      (fun r => failed r = false ↔ pass d.stabstr (d.stabstr_end - d.stabstr)))
    (hbytes : pass USTABDATA sizeofUserStabData →
      ∀ i < 16, Holds ops.load I mem (USTABDATA + BitVec.ofNat 32 i)) :
  (stabTables ops failed eip).Gives I (fun t => (t = none ∧ ¬ (pass USTABDATA sizeofUserStabData
      ∧ pass d.stabs d.count ∧ pass d.stabstr (d.stabstr_end - d.stabstr)))
    ∨ (t = some d ∧ pass USTABDATA sizeofUserStabData ∧ pass d.stabs d.count
      ∧ pass d.stabstr (d.stabstr_end - d.stabstr)))
  := by
  rw [dataAt, if_neg (Nat.not_le.mpr hlow)] at hd
  apply gives_ite
  · exact fun hhigh => (Nat.not_le.mpr hlow hhigh).elim
  · intro _
    apply husd.bind
    intro r hr
    apply gives_ite
    · intro hfailed
      apply gives_pure
      left
      use rfl
      rintro ⟨hpass, -⟩
      rw [hr.mpr hpass] at hfailed
      cases hfailed
    · intro hok
      have hpass := hr.mp (eq_false_of_ne_true hok)
      have hword : ∀ k, k + 4 ≤ 16 → (loadWord ops.load (USTABDATA + BitVec.ofNat 32 k)).Gives I
          (fun v => v = wordAt mem (USTABDATA + BitVec.ofNat 32 k)) := by
        intro k hk
        apply loadWord_gives
        intro i hi
        rw [BitVec.add_assoc, ← BitVec.ofNat_add]
        apply hbytes hpass
        omega
      have hword0 := hword 0 (by omega)
      rw [show USTABDATA + BitVec.ofNat 32 0 = USTABDATA from BitVec.add_zero _] at hword0
      apply hword0.bind
      rintro _ rfl
      apply (hword 4 (by omega)).bind
      rintro _ rfl
      apply (hword 8 (by omega)).bind
      rintro _ rfl
      apply (hword 12 (by omega)).bind
      rintro _ rfl
      rw [hd] at hstabs hstrings ⊢
      apply hstabs.bind
      intro r' hr'
      apply gives_ite
      · intro hfailed
        apply gives_pure
        left
        use rfl
        rintro ⟨-, hpass', -⟩
        rw [hr'.mpr hpass'] at hfailed
        cases hfailed
      · intro hok'
        apply hstrings.bind
        intro r'' hr''
        apply gives_ite
        · intro hfailed
          apply gives_pure
          left
          use rfl
          rintro ⟨-, -, hpass''⟩
          rw [hr''.mpr hpass''] at hfailed
          cases hfailed
        · intro hok''
          apply gives_pure
          right
          exact ⟨rfl, hpass, hr'.mp (eq_false_of_ne_true hok'), hr''.mp (eq_false_of_ne_true hok'')⟩

theorem stabTables_gives {failed : Word → Bool} (hfailed : failed 0 = false)
    (h : eip.toNat < ULIM → Described ops s mem (dataAt ops mem eip)) :
  (stabTables ops failed eip).Gives (fun s' => s' = s) (fun t => t = some (dataAt ops mem eip))
  := by
  have hpass : ∀ r : Word, r = 0 → (failed r = false ↔ True) := by
    rintro _ rfl
    apply iff_of_true hfailed trivial
  rcases Nat.lt_or_ge eip.toNat ULIM with hlow | hhigh
  · have hd := h hlow
    apply (@stabTables_user _ _ _ _ _ _ _ (fun _ _ => True) rfl hlow (hd.usd.mono hpass)
      (hd.stabs.mono hpass) (hd.strings.mono hpass) (fun _ => hd.bytes)).mono
    rintro t (⟨-, hno⟩ | ⟨heq, -⟩)
    · apply (hno ⟨trivial, trivial, trivial⟩).elim
    · apply heq
  · rw [stabTables, if_pos hhigh, dataAt, if_pos hhigh]
    apply gives_pure
    rfl

/-- The number of stabs is not the smallest number, from which one could not take `1` away. -/
theorem Tables.count_sub_one (h : Tables ops s mem eip p) :
  ((dataAt ops mem eip).count - 1).toInt = (dataAt ops mem eip).count.toInt - 1
  := by
  rcases Located.bounds h.located with ⟨h0, h1, h2, h3, h4, h5, h6⟩
  have hlt := BitVec.toInt_lt (x := (dataAt ops mem eip).count)
  have hone : (1 : Word).toInt = 1 := rfl
  rw [BitVec.toInt_sub, hone]
  apply Int.bmod_eq_of_le
  · omega
  · omega

/-- A kernel finds the line if and only if it looks at the right end of the bracket. -/
theorem debuginfoEip_reports_iff {failed : Word → Bool} {end_of : Int × Int → Int}
    (h : Tables ops s mem eip p) (hfailed : failed 0 = false)
    (hend : ∀ q, end_of q = q.1 ∨ end_of q = q.2) :
  Reports (debuginfoEip ops failed end_of eip) s (tableAt mem (dataAt ops mem eip).stabs) p
    ↔ Right (tableAt mem (dataAt ops mem eip).stabs) eip p (end_of (p.line, p.line_end))
  := by
  have hgives : (debuginfoEip ops failed end_of eip).Gives (fun s' => s' = s) (fun r =>
      Correct (tableAt mem (dataAt ops mem eip).stabs) p r
        ↔ Right (tableAt mem (dataAt ops mem eip).stabs) eip p (end_of (p.line, p.line_end))) := by
    apply (stabTables_gives hfailed h.user).bind
    rintro _ rfl
    apply gives_ite
    · intro hle
      apply (BitVec.not_le.mpr h.strings.lt hle).elim
    · intro _
      apply (StabData.holds_last h.strings.lt h.strings.bytes).bind
      rintro _ rfl
      apply gives_ite
      · intro hne
        apply (hne h.strings.zero).elim
      · intro _
        apply searchStabs_gives (stabsAt_shows h.bytes) h.strings hend h.count_sub_one h.stabs
          h.located
        trivial
  rcases hgives s rfl with ⟨r, s', heq, -, hiff⟩
  rw [← hiff]
  constructor
  · rintro ⟨r', s'', heq', hcorrect⟩
    rw [heq] at heq'
    cases heq'
    apply hcorrect
  · exact fun hcorrect => ⟨r, s', heq, hcorrect⟩

theorem Right.of_shown {tab : Int → Stab} {shown : Int} (h : Right tab eip p shown) :
  Right tab eip p p.line
  := by
  rw [Right] at h ⊢
  split
  case isTrue hfile =>
    rw [if_pos hfile] at h
    apply h
  case isFalse hfile =>
    rw [if_neg hfile] at h
    split
    case isTrue hfunc =>
      rw [if_pos hfunc] at h
      apply h
    case isFalse hfunc =>
      rw [if_neg hfunc] at h
      split
      case isTrue hline =>
        rw [if_pos hline] at h
        apply h
      case isFalse => rfl

/-- Both kernels find the line if and only if the last stab before that of the next line has the same
line number. -/
theorem agree_iff (h : Tables ops s mem eip p) :
  Agree ops s mem eip p ↔ Right (tableAt mem (dataAt ops mem eip).stabs) eip p p.line_end
  := by
  have hlab : Reports (debuginfo_eip ops eip) s (tableAt mem (dataAt ops mem eip).stabs) p
      ↔ Right (tableAt mem (dataAt ops mem eip).stabs) eip p p.line := by
    apply debuginfoEip_reports_iff h rfl (fun _ => Or.inl rfl)
  have hroot : Reports (Root.debuginfo_eip ops eip) s (tableAt mem (dataAt ops mem eip).stabs) p
      ↔ Right (tableAt mem (dataAt ops mem eip).stabs) eip p p.line_end := by
    apply debuginfoEip_reports_iff h rfl (fun _ => Or.inr rfl)
  constructor
  · exact fun hagree => hroot.mp hagree.root
  · intro hright
    constructor
    case lab => apply hlab.mpr hright.of_shown
    case root => apply hroot.mpr hright

/-- The bytes of a table with one file, one function, one line and, behind it, a local variable. -/
def oneFunction (va : Word) : Byte :=
  if va = 16 then N_SO
  else if va = 28 then N_FUN
  else if va = 40 then N_SLINE
  else if va = 52 then 0x80
  else if va = 42 then 7
  else if va = 54 then 9
  else if va = 22 ∨ va = 34 then 0x10
  else if va = 23 ∨ va = 35 then 0xF0
  else 0

/-- A kernel whose table is that with one function, up to the address `stab_end`. -/
def oneFunctionOps (stab_end : Word) : DebugOps Unit where
  load va := pure (oneFunction va)
  user_mem_check _ _ := pure 0
  STAB_BEGIN := 0
  STAB_END := stab_end
  STABSTR_BEGIN := 60
  STABSTR_END := 61

/-- Each stab is of a type of its own. -/
theorem oneFunction_type {i : Int} (h : 0 ≤ i) (h' : i ≤ 4) :
  i = if Typed (tableAt oneFunction 0) N_SO i then 1
    else if Typed (tableAt oneFunction 0) N_FUN i then 2
    else if Typed (tableAt oneFunction 0) N_SLINE i then 3
    else if Typed (tableAt oneFunction 0) 0x80 i then 4
    else 0
  := by
  have hcases : i = 0 ∨ i = 1 ∨ i = 2 ∨ i = 3 ∨ i = 4 := by omega
  rcases hcases with rfl | rfl | rfl | rfl | rfl
  · decide
  · decide
  · decide
  · decide
  · decide

theorem oneFunction_once {type : Byte} {i j : Int} (hi : 0 ≤ i) (hi' : i ≤ 4) (hj : 0 ≤ j)
    (hj' : j ≤ 4) (h : Typed (tableAt oneFunction 0) type i)
    (h' : Typed (tableAt oneFunction 0) type j) :
  i = j
  := by
  have hplace := oneFunction_type hi hi'
  have hplace' := oneFunction_type hj hj'
  rw [Typed] at h h'
  simp only [Typed, h] at hplace
  simp only [Typed, h'] at hplace'
  rw [hplace, hplace']

theorem oneFunction_tables {e : Int} {stab_end : Word} (he : 3 ≤ e) (he' : e ≤ 4)
    (hcount : (dataAt (oneFunctionOps stab_end) oneFunction 0xF0100004).count.toInt = e + 1) :
  Tables (oneFunctionOps stab_end) () oneFunction 0xF0100004 ⟨1, e, 2, e, 3, e⟩
  := by
  have hdata : (dataAt (oneFunctionOps stab_end) oneFunction 0xF0100004) = ⟨0, stab_end, 60, 61⟩ := by
    rfl
  have hholds : ∀ va, Holds (oneFunctionOps stab_end).load (fun s' => s' = ()) oneFunction va :=
    fun va => gives_pure rfl
  have hsorted : ∀ type a b, 0 ≤ a → b ≤ 4 → Sorted (tableAt oneFunction 0) type a b := by
    intro type a b ha hb i j hi hij hj htype htype'
    have heq := oneFunction_once (by omega) (by omega) (by omega) (by omega) htype htype'
    omega
  have hnone : ∀ type i, 0 ≤ i → i ≤ 4 → Typed (tableAt oneFunction 0) type i →
      NoneIn (Typed (tableAt oneFunction 0) type) (i + 1) e := by
    intro type i hi hi' htype j hj hj' htype'
    have heq := oneFunction_once hi hi' (by omega) (by omega) htype htype'
    omega
  have hlast : ∀ type addr a i, 0 ≤ i → i ≤ e → a ≤ i → Typed (tableAt oneFunction 0) type i →
      (tableAt oneFunction 0 i).n_value.toNat ≤ addr.toNat →
      LastIn (AtMost (tableAt oneFunction 0) type addr) a e i := by
    intro type addr a i hi hi' ha htype hle
    refine ⟨ha, hi', ⟨htype, hle⟩, ?_⟩
    intro j hj hj' hmost
    apply hnone type i hi (by omega) htype j hj hj' hmost.1
  have hstretch : ∀ type i, 0 ≤ i → i ≤ e → Typed (tableAt oneFunction 0) type i →
      Stretch (tableAt oneFunction 0) type i e e :=
    fun type i hi hi' htype =>
      ⟨hi', Int.le_refl e, hnone type i hi (by omega) htype, Or.inl rfl⟩
  have hends : e + 1 - 1 = e := Int.add_sub_cancel e 1
  have hhigh : ¬ (0xF0100004 : Word).toNat < ULIM := by decide
  have hfile := hlast N_SO 0xF0100004 0 1 (by decide) (by omega) (by decide) (by decide) (by decide)
  have hfunc := hlast N_FUN 0xF0100004 1 2 (by decide) (by omega) (by decide) (by decide) (by decide)
  have hline := hlast N_SLINE (0xF0100004 - (tableAt oneFunction 0 2).n_value) 2 3 (by decide) he
    (by decide) (by decide) (by decide)
  have hzero : oneFunction (61 - 1) = 0 := by decide
  constructor
  case user => exact fun hlow => (hhigh hlow).elim
  case bytes => exact fun _ _ _ _ _ => hholds _
  case strings =>
    rw [hdata]
    exact ⟨(by decide : (60 : Word) < 61), fun _ _ => hholds _, hzero⟩
  case stabs =>
    rw [hcount, hdata]
    constructor
    case header => exact (by decide : (tableAt oneFunction 0 0).n_type ≠ N_SO)
    case files => exact hsorted N_SO 0 _ (Int.le_refl 0) (by omega)
    case functions => exact hsorted N_FUN 0 _ (Int.le_refl 0) (by omega)
    case lines => exact fun f e' hf he' _ _ _ => hsorted N_SLINE f e' hf (by omega)
  case located =>
    rw [hcount, hdata]
    constructor
    case file =>
      rw [hends]
      apply hfile
    case file_end =>
      rw [hends]
      apply hstretch N_SO 1 (by decide) (by omega) (by decide)
    case func => apply hfunc
    case func_end => apply hstretch N_FUN 2 (by decide) (by omega) (by decide)
    case line => apply hline
    case line_end => apply hstretch N_SLINE 3 (by decide) he (by decide)

/-- Without the local variable both kernels find the line. -/
theorem agree_oneFunction :
  Agree (oneFunctionOps 48) () oneFunction 0xF0100004 ⟨1, 3, 2, 3, 3, 3⟩
  := by
  apply (agree_iff (oneFunction_tables (Int.le_refl 3) (by decide) (by decide))).mpr
  decide

/-- With the local variable the root tree reports its number in place of that of the line. -/
theorem not_agree :
  ¬ ∀ (ops : DebugOps Unit) (s : Unit) (mem : Word → Byte) (eip : Word) (p : Places),
    Tables ops s mem eip p → Agree ops s mem eip p
  := by
  intro hall
  have htables := @oneFunction_tables 4 60 (by decide) (Int.le_refl 4) (by decide)
  have hroot := (hall _ _ _ _ _ htables).root
  have hright := (debuginfoEip_reports_iff htables rfl (fun _ => Or.inr rfl)).mp hroot
  revert hright
  decide

end Jos
