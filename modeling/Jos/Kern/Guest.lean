import Jos.Kern.UserMode

/-!
# Guests

When a guest traps, the kernel first looks at the instruction the guest was about to
execute, and carries it out if it is one that it knows.  Only if it does not know the
instruction does it look at the trap.  Here it is worked out for which guests the kernel
reaches the trap, what this means for interrupts, and which addresses it reads.
-/

namespace Jos

open Bytes Prog

variable {s s' : Kernel}

/-! ### Emulated instructions -/

/-- Whether the kernel can read at `va`. -/
def Kernel.Mapped (s : Kernel) (pg : Nat) (va : Word) : Prop :=
  s.translate pg va ≠ none

/-- Whether a byte is an instruction that is emulated. -/
def EmulatedByte (op : Byte) : Prop :=
  op = 0xfa ∨ op = 0xec ∨ op = 0xee

instance (op : Byte) : Decidable (EmulatedByte op) :=
  inferInstanceAs (Decidable (_ ∨ _))

/-- How many bytes of the instruction at `eip` the kernel looks at. -/
def Kernel.looksAt (s : Kernel) (eip : Word) : Nat :=
  if EmulatedByte (s.byteAt eip) then 1
  else if s.byteAt (eip + 1) ++ s.byteAt eip = (0xd08e : BitVec 16) then 2
  else 4

/-- Whether the instruction at `eip` is one that is emulated. -/
def Kernel.Emulated (s : Kernel) (eip : Word) : Prop :=
  s.looksAt eip < 4 ∨ s.wordAt eip = 0x0dc0200f

instance (eip : Word) : Decidable (s.Emulated eip) :=
  inferInstanceAs (Decidable (_ ∨ _))

/-- Whether the kernel can read what it looks at. -/
def Kernel.Fetches (s : Kernel) (pg : Nat) (eip : Word) : Prop :=
  ∀ i < s.looksAt eip, s.Mapped pg (eip + BitVec.ofNat 32 i)

/-- From `s` to `s'` the kernel looked at the instruction at `eip`. -/
structure Looked (eip : Word) (s s' : Kernel) : Prop where
  readsAt : ReadsAt (fun va => ∃ i < s.looksAt eip, va = eip + BitVec.ofNat 32 i) s s'
  read : ∀ i < s.looksAt eip, eip + BitVec.ofNat 32 i ∈ s'.derefs
  hasRead : s.HasRead (fun va => ∃ i < s.looksAt eip, va = eip + BitVec.ofNat 32 i) s'

section Emulate

variable {cur pg : Nat} (hcur : s.curenv = some cur) (hpg : (s.envs cur).envPgdir = some pg)
  (inb : Word → Byte)
include hcur hpg

/-- If the instruction can be read, the kernel reads it and no more, and then emulates it
or leaves it alone. -/
theorem emulate_ok (h : s.Fetches pg (s.envs cur).envTf.tfEip) :
  ∃ s1, Looked (s.envs cur).envTf.tfEip s s1 ∧
    (s.Emulated (s.envs cur).envTf.tfEip ∧ (∃ s2 tf, emulate inb cur s
        = .ok (true, s2.setEnv cur { s2.envs cur with envTf := tf })
        ∧ MemOnly s s2 ∧ s2.derefs = s1.derefs)
      ∨ ¬ s.Emulated (s.envs cur).envTf.tfEip ∧ emulate inb cur s = .ok (false, s1))
  := by
  obtain ⟨tf, htf⟩ : ∃ tf, tf = (s.envs cur).envTf := ⟨_, rfl⟩
  obtain ⟨eip, heip⟩ : ∃ eip, eip = tf.tfEip := ⟨_, rfl⟩
  rw [← htf, ← heip] at h ⊢
  have hzero : eip + BitVec.ofNat 32 0 = eip := BitVec.add_zero _
  have hpos : 0 < s.looksAt eip := by
    unfold Kernel.looksAt
    split
    · decide
    · split
      · decide
      · decide
  have hmap0 := h 0 hpos
  rw [hzero] at hmap0
  have e0 := kernLoad_eq hcur hpg hmap0
  have h0 : ReadsAt (fun va => ∃ i < s.looksAt eip, va = eip + BitVec.ofNat 32 i) s
      (s.accessed eip) := .accessed ⟨0, hpos, hzero.symm⟩
  have hmem0 : eip ∈ (s.accessed eip).derefs := List.mem_cons_self
  rw [emulate, get_bind]
  simp only [← htf, ← heip]
  rw [bind_of_eq e0]
  by_cases hbyte : EmulatedByte (s.byteAt eip)
  · -- one byte
    have hlook : s.looksAt eip = 1 := by rw [Kernel.looksAt, if_pos hbyte]
    have hlooked : Looked eip s (s.accessed eip) := by
      refine ⟨h0, ?_, [eip], rfl, ?_⟩
      · intro i hi
        rw [hlook] at hi
        have hi0 : i = 0 := by omega
        rw [hi0, hzero]
        exact hmem0
      · intro a
        have hspan : span eip 1 = [eip + BitVec.ofNat 32 0] := rfl
        simp only [hlook, ← mem_span]
        rw [hspan, hzero]
    refine ⟨s.accessed eip, hlooked, Or.inl ⟨Or.inl (by omega), ?_⟩⟩
    have hmo := h0.reads.memOnly
    by_cases hfa : s.byteAt eip = 0xfa
    · rw [if_pos hfa]
      exact ⟨_, _, rfl, hmo, rfl⟩
    rw [if_neg hfa]
    by_cases hec : s.byteAt eip = 0xec
    · rw [if_pos hec]
      exact ⟨_, _, rfl, hmo, rfl⟩
    rw [if_neg hec]
    have hee : s.byteAt eip = 0xee := by
      obtain hbyte | hbyte | hbyte := hbyte
      · exact (hfa hbyte).elim
      · exact (hec hbyte).elim
      · exact hbyte
    rw [if_pos hee]
    have hout : ∃ t, emulateOut tf.tfRegs.regEax eip (s.accessed eip) = .ok ((), t)
        ∧ MemOnly (s.accessed eip) t ∧ t.derefs = (s.accessed eip).derefs := by
      unfold emulateOut
      split
      · exact ⟨_, rfl, ⟨rfl, rfl, rfl⟩, rfl⟩
      · exact ⟨_, rfl, ⟨rfl, rfl, rfl⟩, rfl⟩
    obtain ⟨t, ht, hmot, hderefs⟩ := hout
    rw [bind_of_eq ht]
    exact ⟨t, _, rfl, MemOnly.composes.trans hmo hmot, hderefs⟩
  have hne : ∀ op, EmulatedByte op → s.byteAt eip ≠ op := by
    intro op hop heq
    rw [← heq] at hop
    exact hbyte hop
  rw [if_neg (hne 0xfa (Or.inl rfl)), if_neg (hne 0xec (Or.inr (Or.inl rfl))),
    if_neg (hne 0xee (Or.inr (Or.inr rfl)))]
  have hone : 1 < s.looksAt eip := by
    rw [Kernel.looksAt, if_neg hbyte]
    split
    · decide
    · decide
  have e1 := kernLoad_eq (s := s.accessed eip) hcur hpg (h 1 hone)
  have h1 : ReadsAt (fun va => ∃ i < s.looksAt eip, va = eip + BitVec.ofNat 32 i) s
      ((s.accessed eip).accessed (eip + BitVec.ofNat 32 1)) :=
    h0.trans (.accessed ⟨1, hone, rfl⟩)
  have hbyte1 : (s.accessed eip).byteAt (eip + BitVec.ofNat 32 1) = s.byteAt (eip + 1) :=
    h0.reads.byteAt _
  rw [hbyte1] at e1
  have hsame1 : eip + 1 = eip + BitVec.ofNat 32 1 := rfl
  rw [hsame1, bind_of_eq e1]
  by_cases hmov : s.byteAt (eip + 1) ++ s.byteAt eip = (0xd08e : BitVec 16)
  · -- two bytes
    have hlook : s.looksAt eip = 2 := by rw [Kernel.looksAt, if_neg hbyte, if_pos hmov]
    refine ⟨_, ⟨h1, ?_, [eip, eip + BitVec.ofNat 32 1], rfl, ?_⟩,
      Or.inl ⟨Or.inl (by omega), ?_⟩⟩
    · intro i hi
      rw [hlook] at hi
      have hcases : i = 0 ∨ i = 1 := by omega
      rcases hcases with rfl | rfl
      · rw [hzero]
        exact List.mem_cons_of_mem _ hmem0
      · exact List.mem_cons_self
    · intro a
      have hspan : span eip 2 = [eip + BitVec.ofNat 32 0, eip + BitVec.ofNat 32 1] := rfl
      simp only [hlook, ← mem_span]
      rw [hspan, hzero]
    · rw [if_pos hmov]
      exact ⟨_, _, rfl, h1.reads.memOnly, rfl⟩
  -- four bytes
  have hlook : s.looksAt eip = 4 := by rw [Kernel.looksAt, if_neg hbyte, if_neg hmov]
  rw [if_neg hmov]
  have e2 := kernLoad32_run (s := (s.accessed eip).accessed (eip + BitVec.ofNat 32 1)) hcur hpg
    eip (fun i hi => h i (by omega))
  rw [h1.reads.wordAt] at e2
  obtain ⟨s2, hs2⟩ : ∃ s2, s2 = ((s.accessed eip).accessed (eip + BitVec.ofNat 32 1)).readAll
    (span eip 4) := ⟨_, rfl⟩
  rw [← hs2] at e2
  have h2 : ReadsAt (fun va => ∃ i < s.looksAt eip, va = eip + BitVec.ofNat 32 i)
      ((s.accessed eip).accessed (eip + BitVec.ofNat 32 1)) s2 := by
    rw [hs2]
    apply readAll_readsAt
    intro a ha
    rw [hlook]
    exact mem_span.mp ha
  rw [bind_of_eq e2]
  refine ⟨s2, ⟨h1.trans h2, ?_, [eip, eip + BitVec.ofNat 32 1] ++ span eip 4, ?_, ?_⟩, ?_⟩
  · intro i hi
    rw [hlook] at hi
    rw [hs2]
    exact List.mem_append_left _ (List.mem_reverse.mpr (mem_span.mpr ⟨i, hi, rfl⟩))
  · rw [hs2, List.reverse_append, List.append_assoc]
    rfl
  · intro a
    simp only [hlook, ← mem_span, List.mem_append]
    refine ⟨?_, Or.inr⟩
    rintro (ha | ha)
    · have htwo : a ∈ span eip 2 := by
        have hspan : span eip 2 = [eip + BitVec.ofNat 32 0, eip + BitVec.ofNat 32 1] := rfl
        rw [hspan, hzero]
        exact ha
      obtain ⟨i, hi, rfl⟩ := mem_span.mp htwo
      exact mem_span.mpr ⟨i, by omega, rfl⟩
    · exact ha
  by_cases hword : s.wordAt eip = 0x0dc0200f
  · left
    refine ⟨Or.inr hword, ?_⟩
    rw [if_pos hword]
    exact ⟨_, _, rfl, (h1.trans h2).reads.memOnly, rfl⟩
  · right
    constructor
    · rintro (hlt | hw)
      · omega
      · exact hword hw
    · rw [if_neg hword]
      rfl

/-- If the instruction can not be read, the kernel faults. -/
theorem emulate_fault (h : ¬ s.Fetches pg (s.envs cur).envTf.tfEip) :
  ∃ addr, emulate inb cur s = .error (.fault addr)
  := by
  obtain ⟨tf, htf⟩ : ∃ tf, tf = (s.envs cur).envTf := ⟨_, rfl⟩
  obtain ⟨eip, heip⟩ : ∃ eip, eip = tf.tfEip := ⟨_, rfl⟩
  rw [← htf, ← heip] at h
  have hzero : eip + BitVec.ofNat 32 0 = eip := BitVec.add_zero _
  have hone : eip + 1 = eip + BitVec.ofNat 32 1 := rfl
  have hfault : ∀ {α : Type} {m : Prog Kernel α} {f : α → Prog Kernel Bool} {s : Kernel}
      {addr : Nat}, m s = .error (.fault addr) → (m >>= f) s = .error (.fault addr) := by
    intro α m f s addr heq
    simp only [bind, StateT.bind, Except.bind, heq]
  rw [emulate, get_bind]
  simp only [← htf, ← heip]
  by_cases h0 : s.translate pg eip = none
  · exact ⟨_, hfault (kernLoad_fault hcur hpg h0)⟩
  rw [bind_of_eq (kernLoad_eq hcur hpg h0)]
  have hbyte : ¬ EmulatedByte (s.byteAt eip) := by
    intro hbyte
    apply h
    intro i hi
    rw [Kernel.looksAt, if_pos hbyte] at hi
    have hi0 : i = 0 := by omega
    rw [hi0, hzero]
    exact h0
  have hne : ∀ op, EmulatedByte op → s.byteAt eip ≠ op := by
    intro op hop heq
    rw [← heq] at hop
    exact hbyte hop
  rw [if_neg (hne 0xfa (Or.inl rfl)), if_neg (hne 0xec (Or.inr (Or.inl rfl))),
    if_neg (hne 0xee (Or.inr (Or.inr rfl))), hone]
  by_cases h1 : s.translate pg (eip + BitVec.ofNat 32 1) = none
  · exact ⟨_, hfault (kernLoad_fault (s := s.accessed eip) hcur hpg h1)⟩
  have e1 := kernLoad_eq (s := s.accessed eip) hcur hpg h1
  have hbyte1 : (s.accessed eip).byteAt (eip + BitVec.ofNat 32 1) = s.byteAt (eip + 1) :=
    (s.accessed_reads eip).byteAt _
  rw [hbyte1] at e1
  rw [bind_of_eq e1]
  have hmov : s.byteAt (eip + 1) ++ s.byteAt eip ≠ (0xd08e : BitVec 16) := by
    intro hmov
    apply h
    intro i hi
    rw [Kernel.looksAt, if_neg hbyte, if_pos hmov] at hi
    have hcases : i = 0 ∨ i = 1 := by omega
    rcases hcases with rfl | rfl
    · rw [hzero]
      exact h0
    · exact h1
  rw [if_neg hmov]
  have hword : ∃ i < 4, s.translate pg (eip + BitVec.ofNat 32 i) = none := by
    by_contra hall
    apply h
    intro i hi hnone
    rw [Kernel.looksAt, if_neg hbyte, if_neg hmov] at hi
    exact hall ⟨i, hi, hnone⟩
  obtain ⟨addr, heq⟩ := kernLoad32_fault (s := (s.accessed eip).accessed _) hcur hpg eip hword
  exact ⟨addr, hfault heq⟩

end Emulate

/-! ### Interrupts -/

/-- The trap numbers of the hardware interrupts that the kernel handles. -/
def IsInterrupt (trapno : Word) : Prop :=
  trapno = IRQ_OFFSET + IRQ_TIMER ∨ trapno = 33 ∨ trapno = IRQ_OFFSET + IRQ_SPURIOUS

/-- A hardware interrupt is handled: the timer is acknowledged and another environment
chosen, the keyboard is read, spurious interrupts are ignored, and the interrupted
environment keeps its registers. -/
structure HandlesInterrupt (inb : Word → Byte) (faultVa : Word) (cur : Nat) (s : Kernel) :
    Prop where
  timer : (s.envs cur).envTf.tfTrapno = IRQ_OFFSET + IRQ_TIMER →
    ∃ s', Reads s s' ∧ trapDispatch inb faultVa cur s = (do lapicEoi; schedYield) s'
  keyboard : (s.envs cur).envTf.tfTrapno = 33 →
    ∃ s', Reads s s' ∧ trapDispatch inb faultVa cur s = kbdIntr s'
  spurious : (s.envs cur).envTf.tfTrapno = IRQ_OFFSET + IRQ_SPURIOUS →
    ∃ s', Reads s s' ∧ trapDispatch inb faultVa cur s = .ok ((), s')
  registers : IsInterrupt (s.envs cur).envTf.tfTrapno →
    (trapDispatch inb faultVa cur).MayEnd s
      (fun _ s' => (s'.envs cur).envTf = (s.envs cur).envTf)
      (fun s' => (s'.envs cur).envTf = (s.envs cur).envTf)

/-- Dispatching an interrupt by its number. -/
theorem dispatchTrapno_interrupt (cur : Nat) (faultVa : Word) :
  ((s.envs cur).envTf.tfTrapno = IRQ_OFFSET + IRQ_TIMER →
    dispatchTrapno faultVa cur s = (do lapicEoi; schedYield : Prog Kernel Unit) s) ∧
  ((s.envs cur).envTf.tfTrapno = 33 → dispatchTrapno faultVa cur s = kbdIntr s) ∧
  ((s.envs cur).envTf.tfTrapno = IRQ_OFFSET + IRQ_SPURIOUS →
    dispatchTrapno faultVa cur s = .ok ((), s))
  := by
  have hrest : ∀ {no : Word}, (s.envs cur).envTf.tfTrapno = no → no ≠ T_DEBUG → no ≠ T_PGFLT →
      no ≠ T_BRKPT → no ≠ T_SYSCALL →
      dispatchTrapno faultVa cur s = dispatchInterrupt cur s := by
    intro no hno h1 h2 h3 h4
    rw [dispatchTrapno, get_bind]
    simp only [hno]
    rw [if_neg h1, if_neg h2, if_neg h3, if_neg h4]
  refine ⟨?_, ?_, ?_⟩
  · intro hno
    rw [hrest hno (by decide) (by decide) (by decide) (by decide), dispatchInterrupt, get_bind]
    simp only [hno]
    rw [if_neg (by decide), if_neg (by decide), if_pos trivial]
  · intro hno
    rw [hrest hno (by decide) (by decide) (by decide) (by decide), dispatchInterrupt, get_bind]
    simp only [hno]
    rw [if_neg (by decide), if_pos trivial]
  · intro hno
    rw [hrest hno (by decide) (by decide) (by decide) (by decide), dispatchInterrupt, get_bind]
    simp only [hno]
    rw [if_pos trivial]
    rfl

/-- Choosing the next environment changes no registers. -/
theorem schedYield_registers {α : Type} (cur : Nat) :
  (schedYield : Prog Kernel α).MayEnd s (fun _ _ => False)
    (fun s' => (s'.envs cur).envTf = (s.envs cur).envTf)
  := by
  apply schedYield_resumed.mono (fun _ _ h => h)
  rintro s' (@⟨e, -, -⟩ | _)
  · obtain ⟨st, cpu, runs, henv, -⟩ := s.running_envs e cur
    rw [henv]
  · rfl

/-- A trap whose number is looked at is handled if it is an interrupt. -/
theorem handlesInterrupt_of_eq {inb : Word → Byte} {faultVa : Word} {cur : Nat}
    (hreads : Reads s s') (heq : trapDispatch inb faultVa cur s = dispatchTrapno faultVa cur s') :
  HandlesInterrupt inb faultVa cur s
  := by
  have henvs := hreads.memOnly.envs
  obtain ⟨htimer, hkbd, hspurious⟩ := dispatchTrapno_interrupt (s := s') cur faultVa
  rw [henvs] at htimer hkbd hspurious
  constructor
  · exact fun hno => ⟨s', hreads, heq.trans (htimer hno)⟩
  · exact fun hno => ⟨s', hreads, heq.trans (hkbd hno)⟩
  · exact fun hno => ⟨s', hreads, heq.trans (hspurious hno)⟩
  · rintro (hno | hno | hno)
    · refine MayEnd.of_run_eq ?_ (heq.trans (htimer hno))
      rw [lapicEoi, mayEnd_bind, mayEnd_modify]
      apply (schedYield_registers cur).mono (fun _ _ h => h.elim)
      intro s2 h2
      rw [h2, ← henvs]
    · refine MayEnd.of_run_eq ?_ (heq.trans (hkbd hno))
      rw [kbdIntr, mayEnd_modify, ← henvs]
    · have hpure : trapDispatch inb faultVa cur s = (pure () : Prog Kernel Unit) s' :=
        heq.trans (hspurious hno)
      refine MayEnd.of_run_eq ?_ hpure
      rw [mayEnd_pure, henvs]

/-- A trap that is no interrupt need not be handled as one. -/
theorem handlesInterrupt_of_not {inb : Word → Byte} {faultVa : Word} {cur : Nat}
    (h : ¬ IsInterrupt (s.envs cur).envTf.tfTrapno) :
  HandlesInterrupt inb faultVa cur s
  := by
  constructor
  · exact fun hno => (h (Or.inl hno)).elim
  · exact fun hno => (h (Or.inr (Or.inl hno))).elim
  · exact fun hno => (h (Or.inr (Or.inr hno))).elim
  · exact fun hint => (h hint).elim

/-- Choosing the next environment makes no refused access. -/
theorem schedYield_ne_fault {α : Type} {addr : Nat} :
  (schedYield : Prog Kernel α) s ≠ .error (.fault addr)
  := by
  intro hfault
  obtain ⟨-, ⟨e, -, heq⟩ | heq⟩ | ⟨-, heq⟩ := schedYield_run (s := s) (α := α)
  · rw [heq] at hfault
    by_cases hpg : (s.envs e).envPgdir = none
    · rw [envRun_run, if_pos hpg] at hfault
      cases hfault
    · rw [envRun_eq hpg] at hfault
      cases hfault
  · rw [heq] at hfault
    cases hfault
  · rw [heq] at hfault
    cases hfault

section Dispatch

variable {cur : Nat} (htype : (s.envs cur).envType = .ENV_TYPE_GUEST) {inb : Word → Byte}
  (faultVa : Word)
include htype

/-- The number of the trap is looked at when nothing was emulated. -/
theorem trapDispatch_known (heq : emulate inb cur s = .ok (false, s')) :
  trapDispatch inb faultVa cur s = dispatchTrapno faultVa cur s'
  := by
  rw [trapDispatch, get_bind, if_pos htype, bind_of_eq heq]
  rfl

/-- Nothing is left to do when the instruction was emulated. -/
theorem trapDispatch_emulated (heq : emulate inb cur s = .ok (true, s')) :
  trapDispatch inb faultVa cur s = .ok ((), s')
  := by
  rw [trapDispatch, get_bind, if_pos htype, bind_of_eq heq]
  rfl

theorem trapDispatch_fault {addr : Nat} (heq : emulate inb cur s = .error (.fault addr)) :
  trapDispatch inb faultVa cur s = .error (.fault addr)
  := by
  rw [trapDispatch, get_bind, if_pos htype]
  simp only [bind, StateT.bind, Except.bind, heq]

end Dispatch

/-- Interrupts are handled as they are for other environments, and the instruction at the
guest's `eip` is emulated only when it has raised a fault. -/
structure IsolatesInterrupts (inb : Word → Byte) (faultVa : Word) (cur : Nat) (s : Kernel) :
    Prop where
  handles : HandlesInterrupt inb faultVa cur s
  emulates : ∀ s', emulate inb cur s = .ok (true, s') →
    (s.envs cur).envTf.tfTrapno = T_GPFLT

/-- Guests are isolated from interrupts exactly when the instruction at `eip` is not one
that is emulated, and can be read if there is an interrupt, or a general protection fault
has been raised. -/
theorem guest_isolatesInterrupts {cur pg : Nat} (hcur : s.curenv = some cur)
    (hpg : (s.envs cur).envPgdir = some pg) (htype : (s.envs cur).envType = .ENV_TYPE_GUEST)
    (inb : Word → Byte) (faultVa : Word) :
  IsolatesInterrupts inb faultVa cur s ↔
    ((s.envs cur).envTf.tfTrapno ≠ T_GPFLT → s.Fetches pg (s.envs cur).envTf.tfEip →
      ¬ s.Emulated (s.envs cur).envTf.tfEip) ∧
    (IsInterrupt (s.envs cur).envTf.tfTrapno → s.Fetches pg (s.envs cur).envTf.tfEip)
  := by
  constructor
  · intro h
    constructor
    · intro hno hfetch hem
      obtain ⟨s1, -, ⟨-, s2, tf, heq, -⟩ | ⟨hnot, -⟩⟩ := emulate_ok hcur hpg inb hfetch
      · exact hno (h.emulates _ heq)
      · exact hnot hem
    · intro hint
      by_contra hfetch
      obtain ⟨addr, heq⟩ := emulate_fault hcur hpg inb hfetch
      have hfault := trapDispatch_fault htype faultVa heq
      rcases hint with hno | hno | hno
      · obtain ⟨s', -, heq'⟩ := h.handles.timer hno
        rw [hfault, lapicEoi, modify_bind] at heq'
        exact schedYield_ne_fault heq'.symm
      · obtain ⟨s', -, heq'⟩ := h.handles.keyboard hno
        rw [hfault] at heq'
        cases heq'
      · obtain ⟨s', -, heq'⟩ := h.handles.spurious hno
        rw [hfault] at heq'
        cases heq'
  · rintro ⟨hem, hint⟩
    by_cases hfetch : s.Fetches pg (s.envs cur).envTf.tfEip
    · obtain ⟨s1, hlooked, ⟨hemulated, -⟩ | ⟨-, heq⟩⟩ := emulate_ok hcur hpg inb hfetch
      · -- the fault is the one that the instruction has raised
        have hno : (s.envs cur).envTf.tfTrapno = T_GPFLT := by
          by_contra hno
          exact hem hno hfetch hemulated
        exact ⟨handlesInterrupt_of_not (by rw [hno]; simp [IsInterrupt]; decide), fun _ _ => hno⟩
      · constructor
        · apply handlesInterrupt_of_eq hlooked.readsAt.reads
          exact trapDispatch_known htype faultVa heq
        · intro s' heq'
          rw [heq] at heq'
          cases heq'
    · obtain ⟨addr, heq⟩ := emulate_fault hcur hpg inb hfetch
      constructor
      · exact handlesInterrupt_of_not (fun h => hfetch (hint h))
      · intro s' heq'
        rw [heq] at heq'
        cases heq'

/-- The words of the memory of a guest: the directory is the page `1`, its entries refer to
the page table `2`, whose entries refer to the page `3`, which is full of `code`. -/
def guestWord (code : Word) (p _ : Nat) : Word :=
  if p = 1 then page2pa 2 ||| PTE_P ||| PTE_U ||| PTE_W
  else if p = 2 then page2pa 3 ||| PTE_P ||| PTE_U ||| PTE_W
  else code

/-- A kernel in which a guest runs, all of whose addresses are mapped to one page whose
words are `code`, and which was interrupted with the registers `tf`. -/
def guestKernel (code : Word) (tf : Trapframe) : Kernel where
  mem := memOfWords (guestWord code)
  npages := 4
  kernPgdir := 0
  envs := Function.update (fun _ => {}) 0
    { envTf := tf
      envType := .ENV_TYPE_GUEST
      envStatus := .ENV_RUNNING
      envPgdir := some 1 }
  curenv := some 0

/-- Every address of the guest is mapped to the page `3`, and may be read and written. -/
theorem guestKernel_entries (code : Word) (tf : Trapframe) (va : Word) :
  (guestKernel code tf).entries 1 va = some (page2pa 2 ||| PTE_P ||| PTE_U ||| PTE_W,
    page2pa 3 ||| PTE_P ||| PTE_U ||| PTE_W)
  := by
  have hpd : (guestKernel code tf).entry 1 (PDX va) = page2pa 2 ||| PTE_P ||| PTE_U ||| PTE_W :=
    entry_memOfWords (guestWord code) (PDX_lt va) rfl
  have hpt : (guestKernel code tf).entry 2 (PTX va) = page2pa 3 ||| PTE_P ||| PTE_U ||| PTE_W :=
    entry_memOfWords (guestWord code) (PTX_lt va) rfl
  have hpage : ptePage (page2pa 2 ||| PTE_P ||| PTE_U ||| PTE_W) = 2 := by decide
  simp only [Kernel.entries, hpd, hpage, hpt]
  rw [if_pos (by decide), if_pos (by decide)]

/-- Every byte of a guest whose code is made of equal bytes. -/
theorem guestKernel_byteAt {code : Word} {b : Byte} (h : ∀ k < 4, byteOf code k = b)
    (tf : Trapframe) (va : Word) :
  (guestKernel code tf).Mapped 1 va ∧ (guestKernel code tf).byteAt va = b
  := by
  have htrans : (guestKernel code tf).translate 1 va = some (3 * PGSIZE + PGOFF va) := by
    unfold Kernel.translate
    rw [guestKernel_entries]
    have hpage : ptePage (page2pa 3 ||| PTE_P ||| PTE_U ||| PTE_W) = 3 := by decide
    simp only [hpage]
  have hoff : PGOFF va < 4096 := PGOFF_lt va
  constructor
  · rw [Kernel.Mapped, htrans]
    simp
  · have hbyte : (guestKernel code tf).byteAt va
        = memOfWords (guestWord code) (3 * PGSIZE + PGOFF va) := by
      change ((guestKernel code tf).translate 1 va).elim 0 (guestKernel code tf).mem = _
      rw [htrans]
      rfl
    have hdiv : (3 * 4096 + PGOFF va) / 4096 = 3 := by omega
    rw [hbyte, memOfWords]
    simp only [PGSIZE]
    rw [hdiv, guestWord, if_neg (by decide), if_neg (by decide)]
    exact h _ (Nat.mod_lt _ (by decide))

/-- The timer interrupts a guest that does nothing. -/
theorem guest_isolatesInterrupts_nop :
  IsolatesInterrupts (fun _ => 0) 0 0 (guestKernel 0x90909090 { tfTrapno := 32 })
  := by
  have hbytes := guestKernel_byteAt
    (show ∀ k < 4, byteOf (0x90909090 : Word) k = 0x90 by decide) { tfTrapno := 32 }
  refine (guest_isolatesInterrupts (s := guestKernel 0x90909090 { tfTrapno := 32 }) rfl rfl rfl
    (fun _ => 0) 0).mpr ⟨?_, ?_⟩
  · intro _ _
    rw [Kernel.Emulated, Kernel.looksAt, Kernel.wordAt]
    simp only [(hbytes _).2]
    decide
  · exact fun _ i _ => (hbytes _).1

/-- The timer may interrupt a guest that is about to disable interrupts.  The instruction is
emulated, and the interrupt is lost. -/
theorem not_guest_isolatesInterrupts :
  ¬ ∀ (s : Kernel) cur pg inb faultVa, s.curenv = some cur → (s.envs cur).envPgdir = some pg →
    (s.envs cur).envType = .ENV_TYPE_GUEST → IsolatesInterrupts inb faultVa cur s
  := by
  intro hall
  have hbytes := guestKernel_byteAt
    (show ∀ k < 4, byteOf (0xfafafafa : Word) k = 0xfa by decide) { tfTrapno := 32 }
  have h := hall (guestKernel 0xfafafafa { tfTrapno := 32 }) 0 1 (fun _ => 0) 0 rfl rfl rfl
  have hlook : (guestKernel 0xfafafafa { tfTrapno := 32 }).looksAt 0 = 1 := by
    rw [Kernel.looksAt, (hbytes 0).2]
    rfl
  have hcur : (guestKernel 0xfafafafa { tfTrapno := 32 }).curenv = some 0 := rfl
  have hpg : ((guestKernel 0xfafafafa { tfTrapno := 32 }).envs 0).envPgdir = some 1 := rfl
  obtain ⟨s1, -, ⟨-, s2, tf, heq, -⟩ | ⟨hnot, -⟩⟩ := emulate_ok hcur hpg (fun _ => 0)
    (fun i _ => (hbytes _).1)
  · exact absurd (h.emulates _ heq) (by decide)
  · apply hnot
    left
    change (guestKernel 0xfafafafa { tfTrapno := 32 }).looksAt 0 < 4
    rw [hlook]
    decide

end Jos
