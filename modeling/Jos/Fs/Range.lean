import Jos.Fs.Tidy

/-!
# Block numbers in range

`file_get_block` uses an uninitialised pointer when it is asked for a block that no file can
have.  `file_read` and `file_write` do not ask for such a block when the range they access
ends in the range of sizes.
-/

namespace Jos.Fs

open Bytes Io

variable {m : Memory} {f : Nat}

/-- What `file_get_block` does with a block number out of range. -/
def uninitialised : String :=
  "blkno is used uninitialised"

/-- The program gives up for another reason. -/
def Other (msg : String) : Prop :=
  msg ≠ uninitialised

instance (msg : String) : Decidable (Other msg) :=
  inferInstanceAs (Decidable (_ ≠ _))

theorem gives_diskaddr (b : Word) :
  (diskaddr b).Gives Other (fun _ => True)
  := by
  have hbad : Other "bad block number %08x in diskaddr" := by decide
  apply gives_ite
  · exact fun _ => gives_panic hbad
  · intro _
    apply gives_bind (gives_get32 _)
    intro n _
    apply gives_ite
    · exact fun _ => gives_panic hbad
    · exact fun _ => gives_pure trivial

theorem gives_freeBlock (b : Word) :
  (freeBlock b).Gives Other (fun _ => True)
  := by
  apply gives_ite
  · intro _
    apply gives_panic
    decide
  · intro _
    apply gives_bind (gives_get32 _)
    exact fun w _ => gives_set32 _ _

theorem gives_allocBlock :
  allocBlock.Gives Other (fun _ => True)
  := by
  have hbit : ∀ i j, (allocBit i j).Gives Other (fun _ => True) := by
    intro i j
    apply gives_bind (gives_get32 _)
    intro w _
    apply gives_ite
    · intro _
      apply gives_bind (gives_set32 _ _)
      intro _ _
      apply gives_bind (gives_diskaddr _)
      intro va _
      apply gives_bind (gives_sync _)
      exact fun _ _ => gives_pure trivial
    · exact fun _ => gives_pure trivial
  apply gives_bind (gives_get32 _)
  intro n _
  apply gives_bind (gives_findUp (fun i => gives_findUp (hbit i)))
  exact fun r _ => gives_pure trivial

/-- An indirect block that is missing is allocated. -/
theorem gives_needIndirect (f : Nat) :
  (needIndirect f true).Gives Other (fun r => r = none)
  := by
  apply gives_bind (gives_get32 _)
  intro w _
  apply gives_ite
  · exact fun _ => gives_pure rfl
  · intro _
    rw [if_pos rfl]
    apply gives_bind gives_allocBlock
    intro blkno _
    rw [ult_zero, if_neg Bool.false_ne_true]
    apply gives_bind (gives_set32 _ _)
    intro _ _
    apply gives_bind (gives_diskaddr _)
    intro va _
    apply gives_bind (gives_setBytes _ _)
    exact fun _ _ => gives_pure rfl

/-- A block in range has a slot. -/
theorem gives_fileBlockWalk {w : Word} (hw : w.toNat < NINDIRECT + NDIRECT) :
  (fileBlockWalk f w true).Gives Other (fun r => ∃ a, r = .ok a)
  := by
  apply gives_ite
  · exact fun _ => gives_pure ⟨_, rfl⟩
  · intro _
    rw [if_pos hw]
    apply gives_bind (gives_needIndirect f)
    rintro _ rfl
    apply gives_bind (gives_get32 _)
    intro b _
    apply gives_bind (gives_diskaddr _)
    exact fun va _ => gives_pure ⟨_, rfl⟩

/-! ### The functions -/

/-- The walk to a block that is not allocated. -/
theorem gives_fileBlockWalk_false (f : Nat) (w : Word) :
  (fileBlockWalk f w false).Gives Other (fun _ => True)
  := by
  have hneed : (needIndirect f false).Gives Other (fun _ => True) := by
    apply gives_bind (gives_get32 _)
    intro b _
    apply gives_ite
    · exact fun _ => gives_pure trivial
    · exact fun _ => gives_pure trivial
  apply gives_ite
  · exact fun _ => gives_pure trivial
  · intro _
    apply gives_ite
    · intro _
      apply gives_bind hneed
      intro r _
      cases r with
      | some r => exact gives_pure trivial
      | none =>
          apply gives_bind (gives_get32 _)
          intro b _
          apply gives_bind (gives_diskaddr _)
          exact fun va _ => gives_pure trivial
    · exact fun _ => gives_pure trivial

theorem gives_fileFreeBlock (f : Nat) (w : Word) :
  (fileFreeBlock f w).Gives Other (fun _ => True)
  := by
  apply gives_bind (gives_fileBlockWalk_false f w)
  intro r _
  cases r with
  | error r => exact gives_pure trivial
  | ok ptr =>
      apply gives_bind (gives_get32 _)
      intro b _
      apply gives_ite
      · intro _
        apply gives_bind (gives_freeBlock _)
        intro _ _
        apply gives_bind (gives_set32 _ _)
        exact fun _ _ => gives_pure trivial
      · exact fun _ => gives_pure trivial

theorem gives_truncateTo (f : Nat) (w : Word) :
  (truncateTo f w).Gives Other (fun _ => True)
  := by
  have hfree : (freeIndirect f).Gives Other (fun _ => True) := by
    apply gives_bind (gives_get32 _)
    intro b _
    apply gives_ite
    · intro _
      apply gives_bind (gives_freeBlock _)
      exact fun _ _ => gives_set32 _ _
    · exact fun _ => gives_pure trivial
  have hblocks : (fileTruncateBlocks f w).Gives Other (fun _ => True) := by
    apply gives_bind (gives_get32 _)
    intro size _
    apply gives_bind
    · apply gives_forUp
      intro bno
      apply gives_bind (gives_fileFreeBlock f _)
      exact fun _ _ => gives_pure trivial
    · intro _ _
      apply gives_ite
      · exact fun _ => hfree
      · exact fun _ => gives_pure trivial
  apply gives_bind (gives_get32 _)
  intro size _
  apply gives_ite
  · exact fun _ => hblocks
  · exact fun _ => gives_pure trivial

/-- `file_set_size` always succeeds. -/
theorem gives_fileSetSize (f : Nat) (w : Word) :
  (fileSetSize f w).Gives Other (fun r => r = 0)
  := by
  apply gives_bind (gives_truncateTo f w)
  intro _ _
  apply gives_bind (gives_set32 _ _)
  intro _ _
  apply gives_bind (gives_sync _)
  exact fun _ _ => gives_pure rfl

/-- Extending a file always succeeds. -/
theorem gives_extendTo (f : Nat) (stop : Word) :
  (extendTo f stop).Gives Other (fun r => r = 0)
  := by
  apply gives_bind (gives_get32 _)
  intro size _
  apply gives_ite
  · exact fun _ => gives_fileSetSize f stop
  · exact fun _ => gives_pure rfl

end Jos.Fs
