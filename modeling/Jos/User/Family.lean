import Jos.Lib.Trace
import Jos.User.Forking

/-!
# Environments that fork

The environments of a family run in any order, write to their memories and fork.  Each of them reads
what it would read if every `fork` had copied all the memory at once: what one environment writes is
never seen by another one.
-/

namespace Jos

namespace User

open Bytes Prog View

/-! ### Steps -/

/-- What an environment does: it writes a byte, or creates another environment. The addresses in `X`
are those of the stack frame of `fork`. -/
inductive Event where
  | write (e va : Word) (b : Byte)
  | fork (e c : Word) (X : Word → Prop)

/-- The environment `e` runs. -/
def Family.on (f : Family) (e : Word) : Family :=
  { f with world := { f.world with self := e } }

/-- An address of memory that is copied. -/
def Ordinary (va : Word) : Prop :=
  va.toNat < UTOP ∧ ¬ Uncopied va

/-- One step of the family. -/
inductive Step (l : Linked) : Event → Family → Family → Prop where
  | write {f f' : Family} {e va : Word} {b : Byte} (he : e ≠ 0) (hrun : (f.world.procs e).isSome)
      (hva : Ordinary va) (h : User.write l va b (f.on e) = .ok ((), f')) :
      Step l (.write e va b) f f'
  | fork {f f' : Family} {e c : Word} {X : Word → Prop} {frame : Frame} (he : e ≠ 0)
      (hrun : (f.world.procs e).isSome) (hX : ∀ va, X va → Ordinary va) (hframe : frame.Within X)
      (h : User.fork l frame (f.on e) = .ok (c, f')) :
      Step l (.fork e c X) f f'

/-! ### Memories that are not shared -/

/-- The memory of each environment. -/
abbrev Memories := Word → View

/-- What the steps do to memories that are copied at once. Of its stack frame only the extent is
known while `fork` runs. -/
inductive Copies (l : Linked) : Event → Memories → Memories → Prop where
  | write (μ : Memories) (e va : Word) (b : Byte) :
      Copies l (.write e va b) μ (Function.update μ e (put (μ e) (va, b)))
  | fork {μ μ' : Memories} {e c : Word} {X : Word → Prop}
      (hparent : ∀ va, ¬ X va → μ' e va = puts (μ e) (wordBytes l.handler l.pgfault) va)
      (hchild : ∀ va, ¬ X va → μ' c va = μ' e va)
      (hframe : ∀ va, X va → (μ' e va).isSome = (μ e va).isSome
        ∧ (μ' c va).isSome = (μ e va).isSome)
      (hothers : ∀ x, x ≠ e → x ≠ c → μ' x = μ x) :
      Copies l (.fork e c X) μ μ'

open Classical in
/-- What the environments of a family read in the memory that is copied. -/
noncomputable def Family.memories (f : Family) : Memories :=
  fun e va => if Ordinary va then f.world.view e va else none

variable {l : Linked} {f f' : Family} {e c va : Word} {X : Word → Prop}

theorem memories_of_ordinary (h : Ordinary va) :
  f.memories e va = f.world.view e va
  := by rw [Family.memories, if_pos h]

theorem memories_of_not (h : ¬ Ordinary va) :
  f.memories e va = none
  := by rw [Family.memories, if_neg h]

/-- What is not written stays as it is. -/
theorem puts_of_notMem {v : View} {ws : List (Word × Byte)} (h : ∀ x ∈ ws, va ≠ x.1) :
  puts v ws va = v va
  := by
  induction ws generalizing v with
  | nil => rfl
  | cons x ws ih =>
      rw [puts, ih (fun y hy => h y (List.mem_cons_of_mem x hy)),
        put_of_ne (h x (List.mem_cons_self ..))]

/-- It does not matter which environment runs. -/
theorem Family.on_sound (he : e ≠ 0) (hrun : (f.world.procs e).isSome)
    (h : f.world.Sound Nothing) :
  (f.on e).world.Sound Nothing
  := ⟨⟨⟨he, hrun, h.wf.fresh⟩, h.user⟩, h.apart⟩

/-! ### The two systems -/

/-- The variable with the handler lies in memory that is copied. -/
def Linked.Ordinary (l : Linked) : Prop :=
  ∀ x ∈ wordBytes l.handler l.pgfault, User.Ordinary x.1

theorem Linked.Ordinary.not_temp (hl : l.Ordinary) :
  ∀ x ∈ wordBytes l.handler l.pgfault, PGNUM x.1 ≠ PGNUM PFTEMP
  := fun x hx heq => (hl x hx).2 (Or.inl heq)

/-- A step of the family is a step on memories that are not shared. -/
theorem Step.copies (hl : l.Ordinary) {ev : Event} (h : f.world.Sound Nothing)
    (hstep : Step l ev f f') :
  f'.world.Sound Nothing ∧ Copies l ev f.memories f'.memories
  := by
  cases hstep with
  | @write _ _ e va b he hrun hva heq =>
      have hsound := Family.on_sound he hrun h
      obtain ⟨-, hwrote⟩ := (write_any l hsound (fun ht => hva.2 (Or.inl ht)) b).of_eq heq
      refine ⟨hwrote.sound, ?_⟩
      have hmem : f'.memories = Function.update f.memories e (put (f.memories e) (va, b)) := by
        funext e' va'
        by_cases hord : Ordinary va'
        · have htemp : ¬ Temp (f.on e).world e' va' := fun ht => hord.2 (Or.inl ht.2)
          rw [memories_of_ordinary hord]
          by_cases he' : e' = e
          · subst he'
            rw [Function.update_self]
            by_cases hva' : va' = va
            · rw [hva', put_self]
              exact hwrote.written
            · rw [put_of_ne hva', memories_of_ordinary hord]
              exact hwrote.others _ _ htemp (fun hx => hva' hx.2) (fun hl => hl.1)
          · rw [Function.update_of_ne he', memories_of_ordinary hord]
            exact hwrote.others _ _ htemp (fun hx => he' hx.1) (fun hl => hl.1)
        · rw [memories_of_not hord]
          by_cases he' : e' = e
          · subst he'
            have hne : va' ≠ va := by
              rintro rfl
              exact hord hva
            rw [Function.update_self, put_of_ne hne, memories_of_not hord]
          · rw [Function.update_of_ne he', memories_of_not hord]
      rw [hmem]
      exact Copies.write _ _ _ _
  | @fork _ _ e c X frame he hrun hX hframe heq =>
      have hsound := Family.on_sound he hrun h
      have hcopy := (fork_any l hsound hl.not_temp hframe
        (fun va hva ht => (hX va hva).2 (Or.inl ht))).of_eq heq
      refine ⟨hcopy.sound, ?_⟩
      constructor
      case hparent =>
        intro va hva
        by_cases hord : Ordinary va
        · rw [memories_of_ordinary hord]
          refine (hcopy.mine va hord.2 hva).trans ?_
          exact puts_congr (memories_of_ordinary hord).symm
        · rw [memories_of_not hord, puts_of_notMem, memories_of_not hord]
          rintro x hx rfl
          exact hord (hl x hx)
      case hchild =>
        intro va hva
        by_cases hord : Ordinary va
        · rw [memories_of_ordinary hord, memories_of_ordinary hord]
          exact (hcopy.copied va hord.1 hord.2).2 hva
        · rw [memories_of_not hord, memories_of_not hord]
      case hframe =>
        intro va hva
        have hord := hX va hva
        rw [memories_of_ordinary hord, memories_of_ordinary hord, memories_of_ordinary hord,
          hcopy.sound.isSome_view, hcopy.sound.isSome_view, h.isSome_view]
        exact ⟨hcopy.mapped va hord.2, (hcopy.copied va hord.1 hord.2).1⟩
      case hothers =>
        intro x hxe hxc
        funext va
        by_cases hord : Ordinary va
        · rw [memories_of_ordinary hord, memories_of_ordinary hord]
          exact hcopy.others x va hxe hxc
        · rw [memories_of_not hord, memories_of_not hord]

/-- Whatever the environments of a family do, and in whatever order, each of them reads what it would
read if its memory were not shared. -/
theorem family_refines (hl : l.Ordinary) (h : f.world.Sound Nothing) {evs : List Event}
    (hrun : Trace (Step l) f evs f') :
  Trace (Copies l) f.memories evs f'.memories
  := (hrun.simulates Family.memories (fun _ _ _ hs hstep => hstep.copies hl hs) h).2

end User

end Jos
