import Jos.Kern.Guest

/-!
# Port I/O of guests

A guest reads a port with `in (%dx), %al` and writes one with `out %al, (%dx)`.  Both trap, and
`trap_dispatch` carries them out.  Here it is compared with what a processor does.

A processor reads the low byte of `eax` from a port and leaves the other bytes of the register
alone, which the kernel clears.  A processor writes the byte whatever it is and wherever the
instruction is.  The kernel does not look at the port.  It puts the character out if `eax` as a
whole is printable, and the instruction is at an odd address.
-/

namespace Jos

open Bytes Prog

variable {s s' : Kernel}

/-! ### What a processor does -/

def COM1 : BitVec 16 := 0x3F8

/-- Read the port that the low half of `port` names. -/
def inb (ports : BitVec 16 → Byte) (port : Word) : Byte :=
  ports (port.setWidth 16)

/-- The instructions of one byte that read or write a port. -/
inductive PortInstr where
  /-- `in (%dx), %al` -/
  | inAlDx
  /-- `out %al, (%dx)` -/
  | outDxAl

namespace PortInstr

def opcode : PortInstr → Byte
  | inAlDx => 0xec
  | outDxAl => 0xee

/-- The registers after the instruction. -/
def execute (ports : BitVec 16 → Byte) (tf : Trapframe) : PortInstr → Trapframe
  | inAlDx => { tf with
      tfRegs := { tf.tfRegs with
        regEax := tf.tfRegs.regEax &&& ~~~ (0xFF : Word)
          ||| (ports (tf.tfRegs.regEdx.setWidth 16)).setWidth 32 }
      tfEip := tf.tfEip + 1 }
  | outDxAl => { tf with tfEip := tf.tfEip + 1 }

/-- Whether the instruction puts out a byte on the serial console. -/
def PutsOut (tf : Trapframe) : PortInstr → Prop
  | inAlDx => False
  | outDxAl => tf.tfRegs.regEdx.setWidth 16 = COM1

/-- From `s` to `s'` the environment `cur` has executed the instruction as a processor does. -/
structure Executed (io : PortInstr) (ports : BitVec 16 → Byte) (cur : Nat) (s s' : Kernel) :
    Prop where
  registers : (s'.envs cur).envTf = io.execute ports (s.envs cur).envTf
  console : io.PutsOut (s.envs cur).envTf →
    s'.console = s.console ++ [(s.envs cur).envTf.tfRegs.regEax.setWidth 8]

/-- Whether a value is a printable character or a newline. -/
def Printable (val : Word) : Prop :=
  (32 ≤ val.toInt ∧ val.toInt < 128) ∨ val = 10

instance (val : Word) : Decidable (Printable val) :=
  inferInstanceAs (Decidable (_ ∨ _))

/-- Whether the kernel emulates the instruction as a processor executes it. -/
def Faithful (tf : Trapframe) : PortInstr → Prop
  | inAlDx => tf.tfRegs.regEax &&& ~~~ (0xFF : Word) = 0
  | outDxAl => tf.tfRegs.regEdx.setWidth 16 = COM1 →
      Printable tf.tfRegs.regEax ∧ tf.tfEip.toNat % 2 = 1

end PortInstr

/-! ### What the kernel does -/

/-- Replacing the low byte is to clear the others if and only if they are clear. -/
theorem setLowByte_eq_iff (w : Word) (b : Byte) :
  b.setWidth 32 = w &&& ~~~ (0xFF : Word) ||| b.setWidth 32 ↔ w &&& ~~~ (0xFF : Word) = 0
  := by
  have hlow : b.setWidth 32 &&& ~~~ (0xFF : Word) = 0 := by
    revert b
    decide
  constructor
  · intro h
    have hand := congrArg (· &&& ~~~ (0xFF : Word)) h
    simp only [BitVec.and_or_distrib_right, hlow, BitVec.and_assoc, BitVec.and_self] at hand
    exact (hand.trans BitVec.or_zero).symm
  · intro h
    rw [h]
    exact BitVec.zero_or.symm

/-- What the kernel puts out when it emulates `out`. -/
def emitted (tf : Trapframe) : List Byte :=
  if PortInstr.Printable tf.tfRegs.regEax ∧ tf.tfEip.toNat % 2 = 1 then
    [tf.tfRegs.regEax.setWidth 8]
  else
    []

theorem emulateOut_eq (tf : Trapframe) :
  emulateOut tf.tfRegs.regEax tf.tfEip s = .ok ((), { s with console := s.console ++ emitted tf })
  := by
  have hout : emulateOut tf.tfRegs.regEax tf.tfEip
      = if PortInstr.Printable tf.tfRegs.regEax ∧ tf.tfEip.toNat % 2 = 1 then
          cputchar (tf.tfRegs.regEax.setWidth 8)
        else
          pure () := rfl
  rw [hout, emitted]
  by_cases hput : PortInstr.Printable tf.tfRegs.regEax ∧ tf.tfEip.toNat % 2 = 1
  · rw [if_pos hput, if_pos hput]
    rfl
  · rw [if_neg hput, if_neg hput, List.append_nil]
    rfl

section Emulate

variable {cur pg : Nat} (hcur : s.curenv = some cur) (hpg : (s.envs cur).envPgdir = some pg)
  (hmap : s.Mapped pg (s.envs cur).envTf.tfEip) (htype : (s.envs cur).envType = .ENV_TYPE_GUEST)
  (ports : BitVec 16 → Byte) (faultVa : Word)
include hcur hpg hmap htype

/-- The kernel reads a port into all of `eax`. -/
theorem trapDispatch_in (hop : s.byteAt (s.envs cur).envTf.tfEip = 0xec) :
  ∃ s', trapDispatch (inb ports) faultVa cur s = .ok ((), s')
    ∧ (s'.envs cur).envTf = { (s.envs cur).envTf with
      tfRegs := { (s.envs cur).envTf.tfRegs with
        regEax := (inb ports (s.envs cur).envTf.tfRegs.regEdx).setWidth 32 }
      tfEip := (s.envs cur).envTf.tfEip + 1 }
  := by
  have heq : emulate (inb ports) cur s = .ok (true, (s.accessed (s.envs cur).envTf.tfEip).setEnv cur
      { s.envs cur with envTf := { (s.envs cur).envTf with
        tfRegs := { (s.envs cur).envTf.tfRegs with
          regEax := (inb ports (s.envs cur).envTf.tfRegs.regEdx).setWidth 32 }
        tfEip := (s.envs cur).envTf.tfEip + 1 } }) := by
    rw [emulate, get_bind]
    simp only
    rw [bind_of_eq (kernLoad_eq hcur hpg hmap), hop, if_neg (by decide), if_pos rfl]
    rfl
  refine ⟨_, trapDispatch_emulated htype faultVa heq, ?_⟩
  rw [Kernel.setEnv_envs_self]

/-- The kernel leaves the registers alone when it emulates `out`, and lets some bytes pass. -/
theorem trapDispatch_out (hop : s.byteAt (s.envs cur).envTf.tfEip = 0xee) :
  ∃ s', trapDispatch (inb ports) faultVa cur s = .ok ((), s')
    ∧ (s'.envs cur).envTf = { (s.envs cur).envTf with tfEip := (s.envs cur).envTf.tfEip + 1 }
    ∧ s'.console = s.console ++ emitted (s.envs cur).envTf
  := by
  have heq : emulate (inb ports) cur s = .ok (true,
      Kernel.setEnv { s.accessed (s.envs cur).envTf.tfEip with
        console := (s.accessed (s.envs cur).envTf.tfEip).console ++ emitted (s.envs cur).envTf } cur
      { s.envs cur with envTf := { (s.envs cur).envTf with
        tfEip := (s.envs cur).envTf.tfEip + 1 } }) := by
    rw [emulate, get_bind]
    simp only
    rw [bind_of_eq (kernLoad_eq hcur hpg hmap), hop, if_neg (by decide), if_neg (by decide),
      if_pos rfl, bind_of_eq (emulateOut_eq _)]
    rfl
  refine ⟨_, trapDispatch_emulated htype faultVa heq, ?_, rfl⟩
  rw [Kernel.setEnv_envs_self]

/-- If the instruction is executed as by a processor, it is one of those for which that is so. -/
theorem faithful_of_executed {io : PortInstr}
    (hop : s.byteAt (s.envs cur).envTf.tfEip = io.opcode)
    (h : ∃ s', trapDispatch (inb ports) faultVa cur s = .ok ((), s') ∧ io.Executed ports cur s s') :
  io.Faithful (s.envs cur).envTf
  := by
  obtain ⟨s', heq', hexec⟩ := h
  cases io with
  | inAlDx =>
      obtain ⟨s1, heq, hregs⟩ := trapDispatch_in hcur hpg hmap htype ports faultVa hop
      obtain ⟨-, rfl⟩ := ok_inj heq heq'
      have heax := congrArg (fun tf => tf.tfRegs.regEax) (hregs.symm.trans hexec.registers)
      exact (setLowByte_eq_iff _ _).mp heax
  | outDxAl =>
      obtain ⟨s1, heq, -, hconsole⟩ := trapDispatch_out hcur hpg hmap htype ports faultVa hop
      obtain ⟨-, rfl⟩ := ok_inj heq heq'
      intro hcom
      have hput := List.append_cancel_left (hconsole.symm.trans (hexec.console hcom))
      rw [emitted] at hput
      split at hput
      case isTrue hpass => exact hpass
      case isFalse => cases hput

/-- The kernel emulates an instruction as a processor executes it, exactly when it does not have to
keep the upper bytes of `eax`, or to put out something that it does not let pass. -/
theorem trapDispatch_executed_iff {io : PortInstr}
    (hop : s.byteAt (s.envs cur).envTf.tfEip = io.opcode) :
  (∃ s', trapDispatch (inb ports) faultVa cur s = .ok ((), s') ∧ io.Executed ports cur s s')
    ↔ io.Faithful (s.envs cur).envTf
  := by
  constructor
  · exact faithful_of_executed hcur hpg hmap htype ports faultVa hop
  · intro h
    cases io with
    | inAlDx =>
        obtain ⟨s1, heq, hregs⟩ := trapDispatch_in hcur hpg hmap htype ports faultVa hop
        refine ⟨s1, heq, ?_, False.elim⟩
        rw [hregs, PortInstr.execute, ← (setLowByte_eq_iff _ _).mpr h]
        rfl
    | outDxAl =>
        obtain ⟨s1, heq, hregs, hconsole⟩ := trapDispatch_out hcur hpg hmap htype ports faultVa hop
        refine ⟨s1, heq, hregs, ?_⟩
        intro hcom
        rw [hconsole, emitted, if_pos (h hcom)]

end Emulate

/-- A guest whose `eax` is clear reads a port. -/
theorem trapDispatch_executed_in :
  ∃ s', trapDispatch (inb (fun _ => 0x41)) 0 0 (guestKernel 0xecececec { tfTrapno := 13 })
      = .ok ((), s')
    ∧ PortInstr.inAlDx.Executed (fun _ => 0x41) 0 (guestKernel 0xecececec { tfTrapno := 13 }) s'
  := by
  have hbytes := guestKernel_byteAt
    (show ∀ k < 4, byteOf (0xecececec : Word) k = 0xec by decide) { tfTrapno := 13 } 0
  have hclear : PortInstr.inAlDx.Faithful { tfTrapno := 13 } := by
    rw [PortInstr.Faithful]
    decide
  have hop : (guestKernel 0xecececec { tfTrapno := 13 }).byteAt 0 = PortInstr.inAlDx.opcode :=
    hbytes.2
  exact (trapDispatch_executed_iff (s := guestKernel 0xecececec { tfTrapno := 13 }) rfl rfl hbytes.1
    rfl (fun _ => 0x41) 0 hop).mpr hclear

/-- A guest loses the upper bytes of `eax` when it reads a port, and can not put out a newline on
the serial console from an even address. -/
theorem not_trapDispatch_executed :
  (¬ ∃ s', trapDispatch (inb (fun _ => 0x41)) 0 0
        (guestKernel 0xecececec { tfTrapno := 13, tfRegs := { regEax := 0x100 } }) = .ok ((), s')
      ∧ PortInstr.inAlDx.Executed (fun _ => 0x41) 0
        (guestKernel 0xecececec { tfTrapno := 13, tfRegs := { regEax := 0x100 } }) s')
    ∧ ¬ ∃ s', trapDispatch (inb (fun _ => 0x41)) 0 0
        (guestKernel 0xeeeeeeee { tfTrapno := 13, tfRegs := { regEax := 10, regEdx := 0x3F8 } })
          = .ok ((), s')
      ∧ PortInstr.outDxAl.Executed (fun _ => 0x41) 0
        (guestKernel 0xeeeeeeee { tfTrapno := 13, tfRegs := { regEax := 10, regEdx := 0x3F8 } }) s'
  := by
  constructor
  · intro h
    have hbytes := guestKernel_byteAt
      (show ∀ k < 4, byteOf (0xecececec : Word) k = 0xec by decide)
      { tfTrapno := 13, tfRegs := { regEax := 0x100 } } 0
    have hop : (guestKernel 0xecececec { tfTrapno := 13, tfRegs := { regEax := 0x100 } }).byteAt 0
        = PortInstr.inAlDx.opcode := hbytes.2
    have hclear := faithful_of_executed
      (s := guestKernel 0xecececec { tfTrapno := 13, tfRegs := { regEax := 0x100 } }) rfl rfl hbytes.1
      rfl (fun _ => 0x41) 0 hop h
    exact absurd hclear (by rw [PortInstr.Faithful]; decide)
  · intro h
    have hbytes := guestKernel_byteAt
      (show ∀ k < 4, byteOf (0xeeeeeeee : Word) k = 0xee by decide)
      { tfTrapno := 13, tfRegs := { regEax := 10, regEdx := 0x3F8 } } 0
    have hop : (guestKernel 0xeeeeeeee
        { tfTrapno := 13, tfRegs := { regEax := 10, regEdx := 0x3F8 } }).byteAt 0
        = PortInstr.outDxAl.opcode := hbytes.2
    have hpass := faithful_of_executed
      (s := guestKernel 0xeeeeeeee { tfTrapno := 13, tfRegs := { regEax := 10, regEdx := 0x3F8 } })
      rfl rfl hbytes.1 rfl (fun _ => 0x41) 0 hop h
    exact absurd (hpass rfl).2 (by decide)

end Jos
