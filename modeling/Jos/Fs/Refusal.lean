import Jos.Fs.Range
import Jos.Fs.RoundTrip

/-!
# Calls that can not be served

What a call of the file system has to refuse: it needs a block and none is free, or it asks
for a block that no file can have.  `alloc_block` and `file_block_walk` return error codes
for this, but their callers keep them in unsigned variables and compare them with zero, so
that no error code is ever seen: a call returns as if it had succeeded, or panics.
-/

namespace Jos.Fs

open Bytes Io

/-- A call of the file system on a file. `create` is what `file_create` does in the directory
that the path leads to. -/
inductive Call where
  | walk (filebno : Word) (alloc : Bool)
  | get (filebno : Word)
  | write (buf : List Byte) (offset : Word)
  | create (name : List Byte)

/-- The number that a function returns which else sets a pointer. -/
def status : Except Word Nat → Word
  | .error r => r
  | .ok _ => 0

/-- The call on the file `f`. -/
def Call.run (f : Nat) : Call → Io Word
  | walk filebno alloc => do
      let r ← fileBlockWalk f filebno alloc
      pure (status r)
  | get filebno => do
      let r ← fileGetBlock f filebno
      pure (status r)
  | write buf offset => fileWrite f buf offset
  | create name => do
      let r ← createIn f name
      pure (status r)

/-! ### What has to be refused -/

/-- Every entry of the directory `f` has a name. -/
def Crowded (m : Memory) (f : Nat) : Prop :=
  ∀ i < fileSize m f / BLKSIZE, ∀ j < BLKFILES, m (entryAddr m f i j) ≠ 0

instance (m : Memory) (f : Nat) : Decidable (Crowded m f) :=
  inferInstanceAs (Decidable (∀ i < fileSize m f / BLKSIZE, ∀ j < BLKFILES,
    m (entryAddr m f i j) ≠ 0))

/-- The blocks of the file that a call accesses. A directory gets a new block when all its
entries are taken. -/
def Call.blocks (m : Memory) (f : Nat) : Call → Finset Nat
  | walk filebno _ => {filebno.toNat}
  | get filebno => {filebno.toNat}
  | write buf offset => (Finset.range buf.length).image (fun k => (offset.toNat + k) / BLKSIZE)
  | create _ => if Crowded m f then {fileSize m f / BLKSIZE} else ∅

/-- The slots of the blocks in range. -/
def dataSlots (bs : Finset Nat) : Finset Slot :=
  (bs.filter (· < NINDIRECT + NDIRECT)).image Slot.data

/-- The slot of the indirect block, if a block in range is behind it. -/
def indirectSlot (bs : Finset Nat) : Finset Slot :=
  if ∃ i ∈ bs, NDIRECT ≤ i ∧ i < NINDIRECT + NDIRECT then {.indirect} else ∅

/-- The slots that a call needs to be filled. -/
def Call.slots (m : Memory) (f : Nat) (c : Call) : Finset Slot :=
  match c with
  | walk _ alloc => if alloc then indirectSlot (c.blocks m f) else ∅
  | _ => dataSlots (c.blocks m f) ∪ indirectSlot (c.blocks m f)

/-- The error code that a call has to return: the free blocks do not suffice for the slots that
are empty, or a block is out of range. -/
def refusal (m : Memory) (f : Nat) (c : Call) : Option Word :=
  if freeBlocks m < ((c.slots m f).filter (fun t => slot m f t = 0)).card then
    some (-E_NO_DISK)
  else if ∃ i ∈ c.blocks m f, NINDIRECT + NDIRECT ≤ i then
    some (-E_INVAL)
  else
    none

/-- Up to the step that failed, slots were filled with free blocks, and nothing else happened
to the slots of `f` and to the bitmap. -/
structure Undone (m m' : Memory) (f : Nat) : Prop where
  kept : ∀ t, slot m f t ≠ 0 → slot m' f t = slot m f t
  taken : ∀ b, Owns m' f b → Owns m f b ∨ isFree m b = true
  bits : ∀ b, isFree m' b = true ↔ isFree m b = true ∧ ¬ Owns m' f b

/-- A call that has to be refused returns the error code, without a panic, and without an
effect of the step that failed. A directory keeps its size. -/
def Refuses (s : Cache) (f : Nat) (c : Call) : Prop :=
  ∀ e, refusal s.view f c = some e → ∃ s', exec (c.run f) s = (.ok e, s')
    ∧ Undone s.view s'.view f
    ∧ ∀ name, c = .create name → fileSize s'.view f = fileSize s.view f

/-- The buffer of a call lies in user memory, and a directory has all its blocks. -/
def Call.WellFormed (m : Memory) (f : Nat) : Call → Prop
  | write buf _ => buf.length < 0xef800000
  | create _ => fileType m f = FTYPE_DIR ∧ fileSize m f % BLKSIZE = 0
      ∧ ∀ i < fileSize m f / BLKSIZE, dataBlock m f i ≠ 0
  | _ => True

/-- `file_block_walk` is called with a block number out of range. -/
def Call.OutOfRange (c : Call) : Prop :=
  ∃ filebno alloc, c = .walk filebno alloc ∧ NINDIRECT + NDIRECT ≤ filebno.toNat

variable {s s' : Cache} {m : Memory} {f : Nat} {c : Call}

/-! ### What calls return -/

/-- The program returns a value with `R`, or panics. -/
def Returns {α : Type} (p : Io α) (R : α → Prop) : Prop :=
  p.Gives (fun _ => True) R

/-- What is returned on a cache. -/
theorem Returns.exec {α : Type} {p : Io α} {R : α → Prop} {a : α} (h : Returns p R)
    (heq : Fs.exec p s = (.ok a, s')) :
  R a
  := by
  induction p generalizing s with
  | done b =>
      rw [Returns, gives_iff] at h
      cases heq
      exact h
  | panic msg => cases heq
  | load8 x k ih =>
      rw [Returns, gives_iff] at h
      rw [Fs.exec] at heq
      split at heq
      · exact ih _ (h _) heq
      · cases heq
  | load32 x k ih =>
      rw [Returns, gives_iff] at h
      rw [Fs.exec] at heq
      split at heq
      · exact ih _ (h _) heq
      · cases heq
  | store8 x b k ih =>
      rw [Returns, gives_iff] at h
      rw [Fs.exec] at heq
      split at heq
      · exact ih h heq
      · cases heq
  | store32 x w k ih =>
      rw [Returns, gives_iff] at h
      rw [Fs.exec] at heq
      split at heq
      · exact ih h heq
      · cases heq
  | flush x k ih =>
      rw [Returns, gives_iff] at h
      rw [Fs.exec] at heq
      split at heq
      · exact ih h heq
      · cases heq

/-- A slot is found for a block in range. -/
theorem returns_fileBlockWalk {w : Word} (hw : w.toNat < NINDIRECT + NDIRECT) :
  Returns (fileBlockWalk f w true) (fun r => status r = 0)
  := by
  apply (gives_fileBlockWalk hw).mono (fun _ _ => trivial)
  rintro _ ⟨a, rfl⟩
  rfl

theorem returns_allocBlock :
  Returns allocBlock (fun _ => True)
  := gives_allocBlock.mono (fun _ _ => trivial) (fun _ _ => trivial)

/-- A slot is filled. -/
theorem returns_fillSlot (blkno : Nat) :
  Returns (fillSlot blkno) (fun r => r = none)
  := by
  apply gives_bind (gives_get32 _)
  intro b _
  apply gives_ite
  · exact fun _ => gives_pure rfl
  · intro _
    apply gives_bind returns_allocBlock
    intro r _
    rw [ult_zero, if_neg Bool.false_ne_true]
    apply gives_bind (gives_set32 _ _)
    exact fun _ _ => gives_pure rfl

/-- `file_get_block` returns no error code. -/
theorem returns_fileGetBlock (w : Word) :
  Returns (fileGetBlock f w) (fun r => ∃ blk, r = .ok blk)
  := by
  have hwalk : Returns (fileBlockWalk f w true) (fun _ => True) := by
    by_cases hw : w.toNat < NINDIRECT + NDIRECT
    · exact (returns_fileBlockWalk hw).mono (fun _ _ => trivial) (fun _ _ => trivial)
    · have hw' : ¬ w.toNat < NDIRECT := by
        simp only [NDIRECT, NINDIRECT] at hw ⊢
        omega
      rw [fileBlockWalk, if_neg hw', if_neg hw]
      exact gives_pure trivial
  apply gives_bind hwalk
  intro r _
  cases r with
  | error err =>
      simp only [ult_zero, Bool.false_eq_true, if_false]
      exact gives_panic trivial
  | ok blkno =>
      apply gives_bind (returns_fillSlot blkno)
      rintro _ rfl
      apply gives_bind (gives_get32 _)
      intro b _
      apply gives_bind ((gives_diskaddr b).mono (fun _ _ => trivial) (fun _ => id))
      exact fun va _ => gives_pure ⟨va, rfl⟩

/-- The loop of `file_write` returns the number of bytes. -/
theorem returns_writeLoop {count stop : Word} {fuel : Nat} {pos : Word} {buf : List Byte} :
  Returns (writeLoop f count stop fuel pos buf) (fun r => r = count)
  := by
  induction fuel generalizing pos buf with
  | zero => exact gives_pure rfl
  | succ fuel ih =>
      apply gives_ite
      · intro _
        apply gives_bind (returns_fileGetBlock _)
        rintro _ ⟨blk, rfl⟩
        apply gives_bind (gives_setBytes _ _)
        exact fun _ _ => ih
      · exact fun _ => gives_pure rfl

/-- `file_write` returns the number of bytes. -/
theorem returns_fileWrite (buf : List Byte) (offset : Word) :
  Returns (fileWrite f buf offset) (fun r => r = BitVec.ofNat 32 buf.length)
  := by
  apply gives_bind ((gives_extendTo f _).mono (fun _ _ => trivial) (fun _ => id))
  rintro _ rfl
  apply gives_ite
  · intro h
    exact absurd h (by decide)
  · exact fun _ => returns_writeLoop

/-- `dir_alloc_file` returns no error code. -/
theorem returns_dirAllocFile (dir : Nat) :
  Returns (dirAllocFile dir) (fun r => ∃ blk, r = .ok blk)
  := by
  have hblocks : Returns (dirBlocks dir) (fun _ => True) := by
    apply gives_bind (gives_get32 _)
    intro size _
    apply gives_ite
    · exact fun _ => gives_panic trivial
    · exact fun _ => gives_pure trivial
  have hentry : ∀ a, Returns (entryFree a) (fun r => ∀ b, r = some b → ∃ blk, b = .ok blk) := by
    intro a
    apply gives_bind (gives_get8 _)
    intro b _
    apply gives_ite
    · intro _
      apply gives_pure
      rintro _ ⟨⟩
      exact ⟨a, rfl⟩
    · intro _
      apply gives_pure
      rintro _ ⟨⟩
  have hsearch : ∀ i, Returns (searchBlock dir i entryFree)
      (fun r => ∀ b, r = some b → ∃ blk, b = .ok blk) := by
    intro i
    apply gives_bind (returns_fileGetBlock _)
    rintro _ ⟨blk, rfl⟩
    apply gives_findUp_some
    exact fun j => hentry _
  apply gives_bind hblocks
  intro nblock _
  apply gives_bind (gives_findUp_some hsearch)
  intro r hr
  cases r with
  | some r => exact gives_pure (hr r rfl)
  | none =>
      apply gives_bind (gives_get32 _)
      intro size _
      apply gives_bind (gives_set32 _ _)
      exact fun _ _ => returns_fileGetBlock nblock

theorem returns_fileFlush (f : Nat) :
  Returns (fileFlush f) (fun _ => True)
  := by
  have hslot : ∀ x, Returns (flushSlot x) (fun _ => True) := by
    intro x
    apply gives_bind (gives_get32 _)
    intro b _
    apply gives_ite
    · exact fun _ => gives_pure trivial
    · intro _
      apply gives_bind ((gives_diskaddr b).mono (fun _ _ => trivial) (fun _ => id))
      exact fun va _ => gives_sync va
  apply gives_bind (gives_get32 _)
  intro size _
  apply gives_bind
  · apply gives_forUp
    intro i
    apply gives_bind
      ((gives_fileBlockWalk_false f _).mono (fun _ _ => trivial) (fun _ => id))
    intro r _
    cases r with
    | error r => exact gives_pure trivial
    | ok x => exact hslot x
  · intro _ _
    apply gives_bind (gives_sync f)
    exact fun _ _ => hslot _

/-- `file_create` returns no error code of `dir_alloc_file`. -/
theorem returns_createIn (dir : Nat) (name : List Byte) :
  Returns (createIn dir name) (fun r => ∃ blk, r = .ok blk)
  := by
  apply gives_bind (returns_dirAllocFile dir)
  rintro _ ⟨blk, rfl⟩
  apply gives_bind (gives_setBytes _ _)
  intro _ _
  apply gives_bind (returns_fileFlush dir)
  exact fun _ _ => gives_pure ⟨blk, rfl⟩

/-! ### When calls are refused -/

theorem refusal_cases {e : Word} (h : refusal m f c = some e) :
  e = -E_NO_DISK ∨ e = -E_INVAL
  := by
  unfold refusal at h
  split at h
  · left
    exact (Option.some.inj h).symm
  · split at h
    · right
      exact (Option.some.inj h).symm
    · cases h

/-- Numbers of bytes in user memory are no error codes. -/
theorem ofNat_ne_refusal {n : Nat} {e : Word} (hn : n < 0xef800000)
    (h : refusal m f c = some e) :
  BitVec.ofNat 32 n ≠ e
  := by
  have hcode : 0xef800000 ≤ e.toNat := by
    obtain rfl | rfl := refusal_cases h
    · decide
    · decide
  rintro rfl
  rw [BitVec.toNat_ofNat, Nat.mod_eq_of_lt (by omega)] at hcode
  omega

/-- A walk that does not allocate has nothing to refuse in range. -/
theorem refusal_walk_false {w : Word} (hw : w.toNat < NINDIRECT + NDIRECT) :
  refusal m f (.walk w false) = none
  := by
  have hblocks : ¬ ∃ i ∈ (Call.walk w false).blocks m f, NINDIRECT + NDIRECT ≤ i := by
    rintro ⟨i, hi, hle⟩
    rw [Call.blocks, Finset.mem_singleton] at hi
    omega
  have hslots : ((Call.walk w false).slots m f).filter (fun t => slot m f t = 0) = ∅ := rfl
  rw [refusal, hslots, Finset.card_empty, if_neg (Nat.not_lt_zero _), if_neg hblocks]

/-- Where a call has to be refused, it returns something else than the error code. -/
theorem Call.returns {e : Word} (hc : c.WellFormed m f) (hout : ¬ c.OutOfRange)
    (he : refusal m f c = some e) :
  Returns (c.run f) (fun r => r ≠ e)
  := by
  have hzero : ∀ r : Word, r = 0 → r ≠ e := by
    rintro r rfl
    exact ofNat_ne_refusal (n := 0) (by decide) he
  cases c with
  | walk filebno alloc =>
      have hw : filebno.toNat < NINDIRECT + NDIRECT := by
        by_contra hge
        exact hout ⟨filebno, alloc, rfl, Nat.le_of_not_lt hge⟩
      cases alloc with
      | false =>
          rw [refusal_walk_false hw] at he
          cases he
      | true =>
          apply gives_bind (returns_fileBlockWalk hw)
          intro r hr
          exact gives_pure (hzero _ hr)
  | get filebno =>
      apply gives_bind (returns_fileGetBlock filebno)
      rintro _ ⟨blk, rfl⟩
      exact gives_pure (hzero _ rfl)
  | write buf offset =>
      apply (returns_fileWrite buf offset).mono (fun _ _ => trivial)
      rintro _ rfl
      exact ofNat_ne_refusal hc he
  | create name =>
      apply gives_bind (returns_createIn f name)
      rintro _ ⟨blk, rfl⟩
      exact gives_pure (hzero _ rfl)

/-- A call that has to be refused is not, unless it is a walk out of range. -/
theorem not_refuses (hc : c.WellFormed s.view f) (hout : ¬ c.OutOfRange) {e : Word}
    (he : refusal s.view f c = some e) :
  ¬ Refuses s f c
  := by
  intro h
  obtain ⟨s', heq, -⟩ := h e he
  exact (Call.returns hc hout he).exec heq rfl

/-- Nothing happens to a file when nothing is done. -/
theorem Undone.refl (hf : FileOk m f) :
  Undone m m f
  where
  kept _ _ := rfl
  taken _ h := .inl h
  bits b := by
    constructor
    · intro h
      refine ⟨h, fun ho => ?_⟩
      rw [hf.inUse b ho] at h
      cases h
    · exact And.left

/-- A walk out of range is refused. -/
theorem refuses_walk {w : Word} (alloc : Bool) (hf : FileOk s.view f)
    (hw : NINDIRECT + NDIRECT ≤ w.toNat) :
  Refuses s f (.walk w alloc)
  := by
  intro e he
  have hslots : (Call.walk w alloc).slots s.view f = ∅ := by
    have hnone : ¬ ∃ i ∈ ({w.toNat} : Finset Nat), NDIRECT ≤ i ∧ i < NINDIRECT + NDIRECT := by
      rintro ⟨i, hi, -, hlt⟩
      rw [Finset.mem_singleton] at hi
      omega
    cases alloc with
    | false => rfl
    | true =>
        change indirectSlot {w.toNat} = ∅
        rw [indirectSlot, if_neg hnone]
  have hcode : e = -E_INVAL := by
    rw [refusal, hslots, Finset.filter_empty, Finset.card_empty, if_neg (Nat.not_lt_zero _)] at he
    split at he
    · exact (Option.some.inj he).symm
    · cases he
  have hw' : ¬ w.toNat < NDIRECT := by
    simp only [NDIRECT, NINDIRECT] at hw ⊢
    omega
  refine ⟨s, ?_, Undone.refl hf, fun _ _ => rfl⟩
  rw [hcode, Call.run, fileBlockWalk, if_neg hw', if_neg (Nat.not_lt.mpr hw)]
  rfl

/-- A call is served as documented where nothing has to be refused, and where a walk is out of
range.  In all other cases the error code is lost. -/
theorem refuses_iff (hw : Owned s.view) (hf : Live s.view f) (hc : c.WellFormed s.view f) :
  Refuses s f c ↔ refusal s.view f c = none ∨ c.OutOfRange
  := by
  constructor
  · intro h
    by_contra hno
    obtain ⟨hne, hout⟩ := not_or.mp hno
    obtain ⟨e, he⟩ := Option.ne_none_iff_exists'.mp hne
    exact not_refuses hc hout he h
  · rintro (hnone | ⟨w, alloc, rfl, hge⟩)
    · intro e he
      rw [hnone] at he
      cases he
    · exact refuses_walk alloc (hw.fileOk hf) hge

/-! ### What happens instead -/

/-- A walk out of range on a small disk. -/
theorem refuses_tiny :
  Refuses (Cache.booted (tiny (fun _ => 0) (fun _ => 0))) tinyFile (.walk 1034 true)
  := by
  refine (refuses_iff (c := .walk 1034 true) ?_ ?_ trivial).mpr (.inr ⟨1034, true, rfl, by decide⟩)
  · rw [view_booted]
    exact owned_tiny (by decide)
  · rw [view_booted, live_tiny]
    exact .inr rfl

/-- On a disk without a free block, `file_get_block` does not refuse to add a block to an empty
file. -/
theorem not_refuses_tiny :
  ¬ ∀ s f c, Coherent s → Owned s.view → Live s.view f → Call.WellFormed s.view f c →
    Refuses s f c
  := by
  intro h
  have hw : Owned (tiny (fun _ => 0) (fun _ => 0)) := owned_tiny (by decide)
  have hf : Live (tiny (fun _ => 0) (fun _ => 0)) tinyFile := live_tiny.mpr (.inr rfl)
  have hfree : freeBlocks (tiny (fun _ => 0) (fun _ => 0)) = 0 := by
    rw [freeBlocks, nblocks_tiny, Finset.card_eq_zero, Finset.filter_eq_empty_iff]
    decide
  have hlack : 0 < (((Call.get 0).slots (tiny (fun _ => 0) (fun _ => 0)) tinyFile).filter
      (fun t => slot (tiny (fun _ => 0) (fun _ => 0)) tinyFile t = 0)).card := by
    apply Finset.card_pos.mpr
    use .data 0
    rw [Finset.mem_filter]
    refine ⟨?_, slot_tiny_file _⟩
    apply Finset.mem_union_left
    decide
  have he : refusal (tiny (fun _ => 0) (fun _ => 0)) tinyFile (.get 0) = some (-E_NO_DISK) := by
    rw [refusal, hfree, if_pos hlack]
  rw [← view_booted (tiny (fun _ => 0) (fun _ => 0))] at hw hf he
  apply not_refuses (c := .get 0) trivial _ he (h _ _ _ (coherent_booted _) hw hf trivial)
  rintro ⟨w, alloc, hc, -⟩
  cases hc

end Jos.Fs
