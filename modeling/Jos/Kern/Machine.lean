import Jos.Kern.Trap

/-!
# Running the machine

Between two traps an environment runs in user mode.  It changes the pages it may write
to, the processor sets flags in the page table entries it uses, and devices receive
input.  The registers the processor saves at the next trap are up to the environment, but
for those that only the kernel can change.

The kernel's own variables are not among the pages an environment may write to, as long as
messages ask for permissions only and no counter of references wraps around.  Both are
conditions of the runs that are made of such turns.
-/

namespace Jos

open Bytes

/-! ### In user mode -/

/-- Whether the current environment may write to the page `p`. -/
def Kernel.UserPage (s : Kernel) (p : Nat) : Prop :=
  ∃ cur pg va pd pt, s.curenv = some cur ∧ (s.envs cur).envPgdir = some pg
    ∧ s.entries pg va = some (pd, pt) ∧ s.userWritable pg va ∧ ptePage pt = p

/-- Whether `p` holds the page directory or a page table of the current environment. -/
def Kernel.PagingPage (s : Kernel) (p : Nat) : Prop :=
  ∃ cur pg, s.curenv = some cur ∧ (s.envs cur).envPgdir = some pg
    ∧ (p = pg ∨ ∃ d < 1024, present (s.entry pg d) ∧ ptePage (s.entry pg d) = p)

/-- From `s` to `s'` the current environment ran in user mode. No page it may write to holds a
variable of the kernel. -/
structure UserRan (s s' : Kernel) : Prop where
  quiet : s' = { s with mem := s'.mem, serial := s'.serial, keyboard := s'.keyboard }
  frame : ∀ p i, ¬ s.UserPage p → i < 1024 → ∃ flags, s'.entry p i = s.entry p i ||| flags
    ∧ (flags = 0 ∨ (s.PagingPage p ∧ present (s.entry p i) ∧ flags &&& ~~~ (PTE_A ||| PTE_D) = 0))

theorem UserRan.refl (s : Kernel) :
  UserRan s s
  := by
  constructor
  · rfl
  · intro p i _ _
    use 0
    exact ⟨by simp, Or.inl rfl⟩

/-- What the processor makes sure of for the registers it saves when an environment that
was started at privilege level 3, and not in virtual 8086 mode, is interrupted: it is
still at level 3, and what needs a lower level has not changed. -/
structure Interrupted (started saved : Trapframe) : Prop where
  cs : saved.tfCs &&& 3 = 3
  ss : saved.tfSs &&& 3 = 3
  iopl : saved.tfEflags &&& FL_IOPL_MASK = started.tfEflags &&& FL_IOPL_MASK
  vm : saved.tfEflags &&& FL_VM = started.tfEflags &&& FL_VM
  intr : started.tfEflags &&& FL_IOPL_MASK ≠ FL_IOPL_MASK →
    saved.tfEflags &&& FL_IF = started.tfEflags &&& FL_IF

/-! ### From one trap to the next -/

/-- What happens while the kernel is left, and how it is entered again. -/
structure Turn where
  /-- The state in which the kernel is entered. -/
  entered : Kernel
  /-- The registers saved. -/
  tf : Trapframe
  /-- The faulting address. -/
  faultVa : Word := 0
  /-- What the I/O ports hold. -/
  inb : Word → Byte := fun _ => 0

/-- The current environment runs until it is trapped as `t` says, and the kernel handles
the trap and is left in `s'`. -/
structure Turn.Takes (t : Turn) (s s' : Kernel) : Prop where
  ran : UserRan s t.entered
  interrupted : ∀ cur, s.curenv = some cur → (s.envs cur).envTf.tfCs &&& 3 = 3 →
    (s.envs cur).envTf.tfEflags &&& FL_VM = 0 → Interrupted (s.envs cur).envTf t.tf
  left : trap t.inb t.faultVa t.tf t.entered = .error (.leave s')

/-- A message that is sent in the turn asks for permissions only. -/
def Turn.Modest (t : Turn) : Prop :=
  t.tf.tfTrapno = T_SYSCALL → ∀ sys, Syscall.ofWord t.tf.tfRegs.regEax = some sys →
    Jos.Modest sys t.tf.tfRegs.regEbx t.tf.tfRegs.regEdi

/-- The kernel with the frame of the trap saved in the current environment. -/
def Turn.saved (t : Turn) (cur : Nat) : Kernel :=
  t.entered.setEnv cur { t.entered.envs cur with envTf := t.tf }

end Jos
