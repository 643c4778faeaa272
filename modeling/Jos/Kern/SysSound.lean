import Jos.Kern.Delivery
import Jos.Kern.Ipc

/-!
# System calls and the kernel

Whatever its number and its arguments are, a system call should neither panic nor access an
address that the environment may not read, and it should return what its handler returned.
For each system call it is worked out here for which arguments that is so: a number that is
not known panics, `sys_cputs` reads behind the range it has checked,
`sys_env_set_trapframe` reads the frame without a check, and the result of
`sys_env_destroy` is not passed on.  When the last environment gives up, the kernel stays in its
monitor.
-/

namespace Jos

open Bytes Prog

variable {avail held : Finset Nat} {own : Nat → Nat} {l fl : List Nat} {s s' s'' : Kernel}
  {cur pg : Nat}

/-! ### Printing a string -/

/-- Whether the character at index `i` of the string at `p` is looked at: no character before it
is the null character, and the precision, if there is one, is not less than `i`. -/
def Kernel.LooksAtChar (s : Kernel) (p : Word) (precision : Int) (i : Nat) : Prop :=
  (precision < 0 ∨ (i : Int) ≤ precision) ∧ ∀ j < i, s.byteAt (p + BitVec.ofNat 32 j) ≠ 0

theorem looksAtChar_zero (s : Kernel) (p : Word) (precision : Int) :
  s.LooksAtChar p precision 0
  := by
  constructor
  · omega
  · intro j hj
    omega

/-- What is looked at behind the first character, when `precision'` is left. -/
theorem looksAtChar_succ {p : Word} {precision precision' : Int} {i : Nat}
    (hleft : precision < 0 ∧ precision' = precision ∨ 0 < precision ∧ precision' = precision - 1)
    (hch : s.byteAt p ≠ 0) :
  s.LooksAtChar p precision (i + 1) ↔ s.LooksAtChar (p + 1) precision' i
  := by
  have hnext : ∀ j, p + 1 + BitVec.ofNat 32 j = p + BitVec.ofNat 32 (j + 1) := by
    intro j
    rw [Nat.add_comm j 1, BitVec.ofNat_add, BitVec.add_assoc]
    rfl
  have hzero : p + BitVec.ofNat 32 0 = p := BitVec.add_zero p
  constructor
  · rintro ⟨hprec, hall⟩
    constructor
    · omega
    · intro j hj
      rw [hnext]
      exact hall (j + 1) (by omega)
  · rintro ⟨hprec, hall⟩
    constructor
    · omega
    · intro j hj
      cases j with
      | zero =>
          rw [hzero]
          exact hch
      | succ j =>
          rw [← hnext]
          exact hall j (by omega)

/-- Nothing is looked at behind a null character, or when no precision is left. -/
theorem not_looksAtChar_succ {p : Word} {precision : Int} {i : Nat}
    (h : s.byteAt p = 0 ∨ precision = 0) :
  ¬ s.LooksAtChar p precision (i + 1)
  := by
  rintro ⟨hprec, hall⟩
  obtain hch | hp := h
  · have hzero : p + BitVec.ofNat 32 0 = p := BitVec.add_zero p
    have hne := hall 0 (Nat.succ_pos i)
    rw [hzero] at hne
    exact hne hch
  · omega

/-- The state after the addresses `vas` were read and `out` was printed. -/
def Kernel.printed (s : Kernel) (vas : List Word) (out : List Byte) : Kernel :=
  { s.readAll vas with console := s.console ++ out }

section Printing

variable (hcur : s.curenv = some cur) (hpg : (s.envs cur).envPgdir = some pg)
include hcur hpg

/-- A string is printed if what is looked at is mapped, and this is what is read. -/
theorem putString_run {fuel : Nat} {p : Word} {precision : Int}
    (h : ∀ i < fuel, s.LooksAtChar p precision i →
      s.translate pg (p + BitVec.ofNat 32 i) ≠ none) :
  ∃ vas out, putString fuel p precision s = .ok ((), s.printed vas out)
    ∧ ∀ a, a ∈ vas ↔ ∃ i < fuel, s.LooksAtChar p precision i ∧ a = p + BitVec.ofNat 32 i
  := by
  induction fuel generalizing s p precision with
  | zero =>
      refine ⟨[], [], ?_, ?_⟩
      · rw [Kernel.printed, Kernel.readAll, List.append_nil]
        rfl
      · simp
  | succ fuel ih =>
      have hzero : p + BitVec.ofNat 32 0 = p := BitVec.add_zero p
      have hmap := h 0 (Nat.succ_pos fuel) (looksAtChar_zero s p precision)
      rw [hzero] at hmap
      have hstop : (s.byteAt p = 0 ∨ precision = 0) → ∀ a, a ∈ [p] ↔
          ∃ i < fuel + 1, s.LooksAtChar p precision i ∧ a = p + BitVec.ofNat 32 i := by
        intro hend a
        rw [List.mem_singleton]
        constructor
        · rintro rfl
          exact ⟨0, Nat.succ_pos fuel, looksAtChar_zero s _ precision, hzero.symm⟩
        · rintro ⟨i, -, hlook, rfl⟩
          cases i with
          | zero => exact hzero
          | succ i => exact (not_looksAtChar_succ hend hlook).elim
      -- the rest of the string, with what is left of the precision
      have hrest : s.byteAt p ≠ 0 → ∀ precision' : Int,
          (precision < 0 ∧ precision' = precision ∨ 0 < precision ∧ precision' = precision - 1) →
          ∃ vas out, (do
              cputchar (s.byteAt p)
              putString fuel (p + 1) precision' : Prog Kernel Unit) (s.accessed p)
              = .ok ((), s.printed vas out)
            ∧ ∀ a, a ∈ vas ↔
              ∃ i < fuel + 1, s.LooksAtChar p precision i ∧ a = p + BitVec.ofNat 32 i := by
        intro hch precision' hleft
        have hnext : ∀ j, p + 1 + BitVec.ofNat 32 j = p + BitVec.ofNat 32 (j + 1) := by
          intro j
          rw [Nat.add_comm j 1, BitVec.ofNat_add, BitVec.add_assoc]
          rfl
        have hmapped : ∀ i < fuel, s.LooksAtChar (p + 1) precision' i →
            s.translate pg (p + 1 + BitVec.ofNat 32 i) ≠ none := by
          intro i hi hlook
          have hmap' := h (i + 1) (by omega) ((looksAtChar_succ hleft hch).mpr hlook)
          rw [← hnext] at hmap'
          exact hmap'
        obtain ⟨vas, out, heq, hvas⟩ := ih (s := s.printed [p] [s.byteAt p]) hcur hpg hmapped
        refine ⟨p :: vas, s.byteAt p :: out, ?_, ?_⟩
        · rw [cputchar, modify_bind]
          refine heq.trans ?_
          have hstate : (s.printed [p] [s.byteAt p]).printed vas out
              = s.printed (p :: vas) (s.byteAt p :: out) := by
            simp only [Kernel.printed, Kernel.readAll, List.reverse_cons, List.append_assoc,
              List.cons_append, List.nil_append, List.reverse_nil]
          rw [hstate]
        · intro a
          rw [List.mem_cons, hvas]
          constructor
          · rintro (rfl | ⟨i, hi, hlook, rfl⟩)
            · exact ⟨0, Nat.succ_pos fuel, looksAtChar_zero s _ precision, hzero.symm⟩
            · exact ⟨i + 1, by omega, (looksAtChar_succ hleft hch).mpr hlook, hnext i⟩
          · rintro ⟨i, hi, hlook, rfl⟩
            cases i with
            | zero => exact Or.inl hzero
            | succ i =>
                exact Or.inr ⟨i, by omega, (looksAtChar_succ hleft hch).mp hlook, (hnext i).symm⟩
      have hone : s.accessed p = s.printed [p] [] := by
        rw [Kernel.printed, Kernel.readAll, List.append_nil]
        rfl
      rw [putString, bind_of_eq (kernLoad_eq hcur hpg hmap)]
      by_cases hch : s.byteAt p = 0
      · rw [if_pos hch, hone]
        exact ⟨[p], [], rfl, hstop (Or.inl hch)⟩
      rw [if_neg hch]
      by_cases hneg : precision < 0
      · rw [if_pos hneg]
        exact hrest hch precision (Or.inl ⟨hneg, rfl⟩)
      rw [if_neg hneg]
      by_cases hpos : precision - 1 ≥ 0
      · rw [if_pos hpos]
        exact hrest hch (precision - 1) (Or.inr ⟨by omega, rfl⟩)
      · rw [if_neg hpos, hone]
        exact ⟨[p], [], rfl, hstop (Or.inr (by omega))⟩

/-- Printing is a fault in the kernel if something is looked at that is not mapped. -/
theorem putString_fault {fuel : Nat} {p : Word} {precision : Int}
    (h : ∃ i < fuel, s.LooksAtChar p precision i ∧ s.translate pg (p + BitVec.ofNat 32 i) = none) :
  ∃ addr, putString fuel p precision s = .error (.fault addr)
  := by
  induction fuel generalizing s p precision with
  | zero =>
      obtain ⟨i, hi, -⟩ := h
      omega
  | succ fuel ih =>
      obtain ⟨i, hi, hlook, hnone⟩ := h
      have hzero : p + BitVec.ofNat 32 0 = p := BitVec.add_zero p
      by_cases hmap : s.translate pg p = none
      · exact ⟨_, bind_of_error (kernLoad_fault hcur hpg hmap)⟩
      cases i with
      | zero =>
          rw [hzero] at hnone
          exact (hmap hnone).elim
      | succ i =>
          have hch : s.byteAt p ≠ 0 := fun hch => not_looksAtChar_succ (Or.inl hch) hlook
          have hprec : precision ≠ 0 := fun hp => not_looksAtChar_succ (Or.inr hp) hlook
          have hrest : ∀ precision' : Int,
              (precision < 0 ∧ precision' = precision
                ∨ 0 < precision ∧ precision' = precision - 1) →
              ∃ addr, (do
                cputchar (s.byteAt p)
                putString fuel (p + 1) precision' : Prog Kernel Unit) (s.accessed p)
                = .error (.fault addr) := by
            intro precision' hleft
            have hnext : p + 1 + BitVec.ofNat 32 i = p + BitVec.ofNat 32 (i + 1) := by
              rw [Nat.add_comm i 1, BitVec.ofNat_add, BitVec.add_assoc]
              rfl
            rw [← hnext] at hnone
            rw [cputchar, modify_bind]
            exact ih (s := s.printed [p] [s.byteAt p]) hcur hpg
              ⟨i, by omega, (looksAtChar_succ hleft hch).mp hlook, hnone⟩
          rw [putString, bind_of_eq (kernLoad_eq hcur hpg hmap), if_neg hch]
          by_cases hneg : precision < 0
          · rw [if_pos hneg]
            exact hrest precision (Or.inl ⟨hneg, rfl⟩)
          · rw [if_neg hneg, if_pos (by omega)]
            exact hrest (precision - 1) (Or.inr ⟨by omega, rfl⟩)

end Printing

/-! ### What a call may do -/

/-- From `s` to `s'` user memory was read only at addresses with `A`. -/
def Kernel.ReadsIn (A : Word → Prop) (s s' : Kernel) : Prop :=
  ∃ vas : List Word, s'.derefs = vas.reverse ++ s.derefs ∧ ∀ a ∈ vas, A a

/-- The program neither panics nor faults, and reads user memory only at addresses with `A`. -/
def Harmless {α : Type} (A : Word → Prop) (m : Prog Kernel α) (s : Kernel) : Prop :=
  m.Ends s (fun _ s' => s.ReadsIn A s') (fun s' => s.ReadsIn A s')

/-- The program reads the addresses `L` if the directory `pg` maps all of them, and faults
otherwise. -/
structure ReadsExactly {α : Type} (pg : Nat) (L : Word → Prop) (m : Prog Kernel α) (s : Kernel) :
    Prop where
  ends : (∀ a, L a → s.translate pg a ≠ none) →
    m.Ends s (fun _ s' => s.HasRead L s') (fun s' => s.HasRead L s')
  faults : ∀ a, L a → s.translate pg a = none → ∃ addr, m s = .error (.fault addr)

/-- What was read is known from the state that is reached. -/
theorem Kernel.HasRead.readsIn_iff {L A : Word → Prop} (h : s.HasRead L s') :
  s.ReadsIn A s' ↔ ∀ a, L a → A a
  := by
  obtain ⟨vas, hvas, hL⟩ := h
  constructor
  · rintro ⟨vas', h', hall⟩ a ha
    have heq : vas'.reverse = vas.reverse := List.append_cancel_right (h'.symm.trans hvas)
    apply hall
    rw [List.reverse_inj.mp heq]
    exact (hL a).mpr ha
  · exact fun hall => ⟨vas, hvas, fun a ha => hall a ((hL a).mp ha)⟩

theorem not_harmless_of_fault {α : Type} {A : Word → Prop} {m : Prog Kernel α} {addr : Nat}
    (heq : m s = .error (.fault addr)) :
  ¬ Harmless A m s
  := by
  intro h
  obtain ⟨a, s1, h1, -⟩ | ⟨s1, h1, -⟩ := h.cases
  · rw [heq] at h1
    cases h1
  · rw [heq] at h1
    cases h1

/-- A program that ends in the monitor is not harmless. -/
theorem not_harmless_of_stuck {α : Type} {A : Word → Prop} {m : Prog Kernel α}
    (heq : m s = noRunnable s) :
  ¬ Harmless A m s
  := by
  intro h
  obtain ⟨a, s1, h1, -⟩ | ⟨s1, h1, -⟩ := h.cases
  · rw [heq] at h1
    cases h1
  · rw [heq] at h1
    cases h1

namespace ReadsExactly

variable {α : Type} {L A : Word → Prop} {m : Prog Kernel α}

/-- A program is harmless if and only if what it reads is mapped and has `A`. -/
theorem harmless_iff (h : ReadsExactly pg L m s) :
  Harmless A m s ↔ ∀ a, L a → s.translate pg a ≠ none ∧ A a
  := by
  by_cases hmap : ∀ a, L a → s.translate pg a ≠ none
  · have hends := h.ends hmap
    constructor
    · intro hA a ha
      refine ⟨hmap a ha, ?_⟩
      obtain ⟨r, s1, heq, hread⟩ | ⟨s1, heq, hread⟩ := hends.cases
      · exact hread.readsIn_iff.mp ((ends_of_eq heq).mp hA) a ha
      · exact hread.readsIn_iff.mp ((ends_of_leave heq).mp hA) a ha
    · intro hA
      apply hends.mono
      · exact fun _ s1 hread => hread.readsIn_iff.mpr (fun a ha => (hA a ha).2)
      · exact fun s1 hread => hread.readsIn_iff.mpr (fun a ha => (hA a ha).2)
  · simp only [not_forall, not_not] at hmap
    obtain ⟨a, ha, hnone⟩ := hmap
    obtain ⟨addr, heq⟩ := h.faults a ha hnone
    exact iff_of_false (not_harmless_of_fault heq) (fun hall => (hall a ha).1 hnone)

/-- What an environment may read is mapped. -/
theorem harmless_readable_iff (h : ReadsExactly pg L m s) :
  Harmless (fun a => s.userReadable pg a = true) m s
    ↔ ∀ a, L a → s.userReadable pg a = true
  := by
  rw [h.harmless_iff]
  constructor
  · exact fun hall a ha => (hall a ha).2
  · exact fun hall a ha => ⟨translate_of_readable (hall a ha), hall a ha⟩

/-- A program that runs like another one reads what that one reads. -/
theorem of_run_eq {m' : Prog Kernel α} (h : ReadsExactly pg L m' s) (heq : m s = m' s) :
  ReadsExactly pg L m s
  := by
  constructor
  case ends =>
    intro hmap
    have hends := h.ends hmap
    unfold Ends at hends ⊢
    rw [heq]
    exact hends
  case faults =>
    intro a ha hnone
    rw [heq]
    exact h.faults a ha hnone

/-- What is returned afterwards does not matter. -/
theorem bind_pure (h : ReadsExactly pg L m s) {β : Type} (b : β) :
  ReadsExactly pg L (do
    let _ ← m
    pure b : Prog Kernel β) s
  := by
  constructor
  case ends =>
    intro hmap
    rw [ends_bind]
    exact (h.ends hmap).mono (fun _ _ h => ends_pure _ |>.mpr h) (fun _ h => h)
  case faults =>
    intro a ha hnone
    obtain ⟨addr, heq⟩ := h.faults a ha hnone
    exact ⟨addr, bind_of_error heq⟩

end ReadsExactly

/-- The program neither panics nor faults, and reads no user memory. -/
def Unread {α : Type} (m : Prog Kernel α) (s : Kernel) : Prop :=
  m.Ends s (fun _ s' => s'.derefs = s.derefs) (fun s' => s'.derefs = s.derefs)

/-- What reads nothing reads the empty set of addresses. -/
theorem Unread.readsExactly {α : Type} {m : Prog Kernel α} {L : Word → Prop} (h : Unread m s)
    (hL : ∀ a, ¬ L a) :
  ReadsExactly pg L m s
  := by
  have hread : ∀ {s1 : Kernel}, s1.derefs = s.derefs → s.HasRead L s1 := fun heq =>
    ⟨[], heq, fun a => iff_of_false (by simp) (hL a)⟩
  constructor
  case ends => exact fun _ => h.mono (fun _ _ => hread) (fun _ => hread)
  case faults => exact fun a ha => (hL a ha).elim

theorem unread_of_eq {α : Type} {m : Prog Kernel α} {a : α} (heq : m s = .ok (a, s'))
    (h : s'.derefs = s.derefs) :
  Unread m s
  := (ends_of_eq heq).mpr h

theorem unread_of_leave {α : Type} {m : Prog Kernel α} (heq : m s = .error (.leave s'))
    (h : s'.derefs = s.derefs) :
  Unread m s
  := (ends_of_leave heq).mpr h

theorem Unread.of_run_eq {α β : Type} {m : Prog Kernel α} {f : α → Prog Kernel β} {a : α}
    (heq : m s = .ok (a, s')) (h : s'.derefs = s.derefs) (hf : Unread (f a) s') :
  Unread (m >>= f) s
  := by
  rw [Unread, ends_bind, ends_of_eq heq]
  apply hf.mono
  · exact fun _ _ h' => h'.trans h
  · exact fun _ h' => h'.trans h

/-! ### Calls that read no user memory -/

theorem Switched.derefs (h : Switched s s') :
  s'.derefs = s.derefs
  := by
  obtain ⟨e, -, rfl⟩ | rfl := h
  · exact running_derefs s e
  · rfl

theorem Freed.derefs {e : Fin NENV} (h : Freed held e s s') :
  s'.derefs = s.derefs
  := by rw [h.quiet]

theorem Edit.derefs {f : PteAddr → Word} (h : Edit held s s' f) :
  s'.derefs = s.derefs
  := by rw [h.quiet]

section Calls

variable (h : Wf avail held own s) {e : Fin NENV} (hcur : s.curenv = some e.val)
  (hlive : s.Live e) (hfits : s.Fits avail own)
include h

theorem schedYield_unread {α : Type} (halive : s.SomeAlive) :
  Unread (schedYield : Prog Kernel α) s
  := by
  obtain ⟨fl, hfl⟩ := h.env
  obtain ⟨s1, heq, hsw⟩ := schedYield_ok (α := α) hfl halive
  exact unread_of_leave heq hsw.derefs

/-- An environment is created, or not for lack of memory, when one is free. -/
theorem envAllocType_unread (hfree : s.envFreeList ≠ some NENV) (type : EnvType)
    (parentId : Word) :
  ∃ r s', envAllocType type parentId s = .ok (r, s') ∧ s'.derefs = s.derefs
  := by
  obtain ⟨l, hl⟩ := h.mem
  obtain ⟨fl, hfl⟩ := h.env
  obtain ⟨-, heq⟩ | ⟨_, _, _, _, s1, -, -, heq, hc, -, -⟩ :=
    envAllocType_ok hl hfl hfree type parentId
  · exact ⟨_, s, heq, rfl⟩
  · exact ⟨_, s1, heq, by rw [hc.quiet]⟩

include hfits

theorem envDestroy_unread {e : Nat} (hlive : s.Live e)
    (halive : s.curenv = some e → s.OtherAlive e) :
  Unread (envDestroy e) s
  := by
  apply (envDestroy_ok h (e := ⟨e, hlive.1⟩) hlive hfits halive).mono
  · rintro _ s1 ⟨hdone, -⟩
    cases hdone with
    | dying => rfl
    | freed hfreed => exact hfreed.derefs
  · rintro s1 ⟨⟨s2, hfreed, -, hsw⟩, -⟩
    exact hsw.derefs.trans hfreed.derefs

include hcur hlive

theorem sysEnvDestroy_unread (envid : Word)
    (halive : s.findEnv e envid true = some e.val → s.OtherAlive e) :
  Unread (sysEnvDestroy envid) s
  := by
  rw [sysEnvDestroy]
  apply Unread.of_run_eq (envid2env_eq hcur envid true) rfl
  cases hfind : s.findEnv e envid true with
  | none => exact unread_of_eq pure_run rfl
  | some e' =>
      have hlive' := findEnv_live hlive hfind
      have halive' : s.curenv = some e' → s.OtherAlive e' := by
        intro hcur'
        obtain rfl : e.val = e' := Option.some.inj (hcur.symm.trans hcur')
        exact halive hfind
      rw [Unread, ends_bind]
      exact (envDestroy_unread h hfits hlive' halive').mono (fun _ _ h => ends_pure _ |>.mpr h)
        (fun _ h => h)

omit hfits

theorem sysPageAlloc_unread (envid va perm : Word) :
  Unread (sysPageAlloc envid va perm) s
  := by
  obtain ⟨l, hl⟩ := h.mem
  obtain ⟨fl, hfl⟩ := h.env
  obtain ⟨r, s1, heq, -, hdone⟩ := sysPageAlloc_ok hl hfl hcur hlive envid va perm
  apply unread_of_eq heq
  obtain ⟨-, -, hedit⟩ | ⟨_, _, _, -, -, -, -, -, hedit, -⟩ := hdone
  · exact hedit.derefs
  · exact hedit.derefs

theorem sysPageMap_unread (srcenvid srcva dstenvid dstva perm : Word) :
  Unread (sysPageMap srcenvid srcva dstenvid dstva perm) s
  := by
  obtain ⟨l, hl⟩ := h.mem
  obtain ⟨fl, hfl⟩ := h.env
  obtain ⟨r, s1, heq, -, hdone⟩ :=
    sysPageMap_ok hl hfl hcur hlive srcenvid srcva dstenvid dstva perm
  apply unread_of_eq heq
  obtain ⟨-, hedit⟩ | ⟨_, _, _, _, -, -, -, -, -, -, -, -, hedit⟩ := hdone
  · exact hedit.derefs
  · exact hedit.derefs

theorem sysPageUnmap_unread (envid va : Word) :
  Unread (sysPageUnmap envid va) s
  := by
  obtain ⟨l, hl⟩ := h.mem
  obtain ⟨fl, hfl⟩ := h.env
  obtain ⟨r, s1, heq, -, hdone⟩ := sysPageUnmap_ok hl hfl hcur hlive envid va
  apply unread_of_eq heq
  obtain ⟨-, rfl⟩ | ⟨_, _, -, -, -, hedit⟩ := hdone
  · rfl
  · exact hedit.derefs

theorem sysIpcTrySend_unread (envid value srcva perm : Word) :
  Unread (sysIpcTrySend envid value srcva perm) s
  := by
  obtain ⟨r, s1, heq, hdone, -⟩ := sysIpcTrySend_ok h hcur hlive envid value srcva perm
  apply unread_of_eq heq
  cases hdone with
  | badEnv => rfl
  | notRecv => rfl
  | refused => rfl
  | noMem => rfl
  | page _ _ _ _ _ hedit => exact hedit.derefs
  | value => rfl

omit hlive

theorem sysExofork_unread (hfree : s.envFreeList ≠ some NENV) :
  Unread sysExofork s
  := by
  rw [sysExofork]
  apply Unread.of_run_eq (curenv_eq hcur) rfl
  rw [Unread, ends_bind, ends_get]
  obtain ⟨r, s1, heq, hderefs⟩ :=
    envAllocType_unread h hfree .ENV_TYPE_USER (s.envs e).envId
  apply Unread.of_run_eq (m := envAlloc (s.envs e).envId) heq hderefs
  cases r with
  | error r => exact unread_of_eq pure_run rfl
  | ok e' =>
      rw [Unread, ends_bind, ends_get, ends_bind, ends_set, ends_pure]
      rfl

theorem sysEnvMkguest_unread (hfree : s.envFreeList ≠ some NENV) (size eip : Word) :
  Unread (sysEnvMkguest size eip) s
  := by
  rw [sysEnvMkguest]
  apply Unread.of_run_eq (curenv_eq hcur) rfl
  rw [Unread, ends_bind, ends_get]
  obtain ⟨r, s1, heq, hderefs⟩ :=
    envAllocType_unread h hfree .ENV_TYPE_GUEST (s.envs e).envId
  apply Unread.of_run_eq (m := envGuestAlloc (s.envs e).envId) heq hderefs
  cases r with
  | error r => exact unread_of_eq pure_run rfl
  | ok e' =>
      rw [Unread, ends_bind, ends_get, ends_bind, ends_set, ends_pure]
      rfl

omit h

theorem sysIpcRecv_unread (dstva : Word) :
  Unread (sysIpcRecv dstva) s
  := by
  rw [sysIpcRecv]
  split
  · exact unread_of_eq pure_run rfl
  · apply Unread.of_run_eq (curenv_eq hcur) rfl
    rw [Unread, ends_bind, ends_modify, ends_pure]
    rfl

theorem sysEnvSetStatus_unread (envid status : Word) :
  Unread (sysEnvSetStatus envid status) s
  := by
  rw [sysEnvSetStatus]
  cases statusOfWord status with
  | none => exact unread_of_eq pure_run rfl
  | some st =>
      apply Unread.of_run_eq (envid2env_eq hcur envid true) rfl
      cases s.findEnv e envid true with
      | none => exact unread_of_eq pure_run rfl
      | some e' =>
          rw [Unread, ends_bind, ends_modify, ends_pure]
          rfl

theorem sysEnvSetPgfaultUpcall_unread (envid func : Word) :
  Unread (sysEnvSetPgfaultUpcall envid func) s
  := by
  rw [sysEnvSetPgfaultUpcall]
  apply Unread.of_run_eq (envid2env_eq hcur envid true) rfl
  cases s.findEnv e envid true with
  | none => exact unread_of_eq pure_run rfl
  | some e' =>
      simp only
      split
      · exact unread_of_eq pure_run rfl
      · rw [Unread, ends_bind, ends_modify, ends_pure]
        rfl

theorem sysGetenvid_unread :
  Unread sysGetenvid s
  := by
  rw [sysGetenvid]
  apply Unread.of_run_eq (curenv_eq hcur) rfl
  exact unread_of_eq rfl rfl

end Calls

/-- Input that is polled for is put into a buffer of the kernel. -/
theorem sysCgetc_unread (s : Kernel) :
  Unread sysCgetc s
  := by
  rw [sysCgetc, consGetc, serialIntr, kbdIntr, Unread, ends_bind, ends_modify, ends_bind,
    ends_modify, ends_bind, ends_get, ends_ite]
  constructor
  · intro _
    rw [ends_bind, ends_set, ends_pure]
  · intro _
    rw [ends_pure]

/-! ### Calls that read user memory -/

/-- The addresses `sys_env_set_trapframe` reads: the `tf_eip` of the frame at `tf`, and all of
the frame when that is below `UTOP`. -/
def Kernel.FrameLooks (s : Kernel) (tf a : Word) : Prop :=
  a ∈ span (tf + 48) 4 ∨ ((s.wordAt (tf + 48)).toNat < UTOP ∧ a ∈ span tf 68)

/-- The addresses `sys_cputs` reads, once the range `[va, va + len)` has passed its check. -/
def Kernel.StringLooks (s : Kernel) (pg : Nat) (va len a : Word) : Prop :=
  (∀ i < len.toNat, s.Passes pg (PTE_P ||| PTE_U) (va + BitVec.ofNat 32 i)) ∧ va ≠ 0
    ∧ ∃ i < 2 ^ 32, s.LooksAtChar va len.toInt i ∧ a = va + BitVec.ofNat 32 i

section Readers

variable (hcur : s.curenv = some cur) (henvpg : (s.envs cur).envPgdir = some pg)
include hcur henvpg

/-- The frame of another environment is read if there is such an environment. -/
theorem sysEnvSetTrapframe_readsExactly (envid tf : Word) :
  ReadsExactly pg (fun a => s.findEnv cur envid true ≠ none ∧ s.FrameLooks tf a)
    (sysEnvSetTrapframe envid tf) s
  := by
  cases hfind : s.findEnv cur envid true with
  | none =>
      have hrun : sysEnvSetTrapframe envid tf s = .ok (-E_BAD_ENV, s) := by
        rw [sysEnvSetTrapframe, bind_of_eq (envid2env_eq hcur envid true), hfind]
        rfl
      exact (unread_of_eq hrun rfl).readsExactly (fun a ha => ha.1 rfl)
  | some e =>
      have hrun : sysEnvSetTrapframe envid tf s = (do
          let eip ← kernLoad32 (tf + 48)
          if eip.toNat ≥ UTOP then
            pure (-1)
          else
            let ws ← kernLoadWords tf 17
            let frame := Trapframe.ofWords (fun i => ws.getD i 0)
            modify (fun s => s.setEnv e { s.envs e with
              envTf := { frame with tfEflags := frame.tfEflags ||| FL_IF } })
            pure 0 : Prog Kernel Word) s := by
        rw [sysEnvSetTrapframe, bind_of_eq (envid2env_eq hcur envid true), hfind]
      have hlooks : ∀ a, (some e ≠ none ∧ s.FrameLooks tf a) ↔ s.FrameLooks tf a :=
        fun a => and_iff_right (by simp)
      simp only [hlooks]
      constructor
      case ends =>
        intro hmap
        have heq1 := kernLoad32_run hcur henvpg (tf + 48)
          (fun i hi => hmap _ (Or.inl (mem_span.mpr ⟨i, hi, rfl⟩)))
        rw [bind_of_eq heq1] at hrun
        by_cases heip : (s.wordAt (tf + 48)).toNat ≥ UTOP
        · rw [if_pos heip] at hrun
          refine (ends_of_eq hrun).mpr ⟨span (tf + 48) 4, rfl, ?_⟩
          intro a
          refine ⟨Or.inl, ?_⟩
          rintro (ha | ⟨hlt, -⟩)
          · exact ha
          · exact absurd hlt (Nat.not_lt_of_le heip)
        · have hlt := Nat.lt_of_not_le heip
          have heq2 := kernLoadWords_run (s := s.readAll (span (tf + 48) 4)) hcur henvpg
            tf 17 (fun i hi => hmap _ (Or.inr ⟨hlt, mem_span.mpr ⟨i, hi, rfl⟩⟩))
          rw [Kernel.readAll_append] at heq2
          rw [if_neg heip, bind_of_eq heq2] at hrun
          refine (ends_of_eq hrun).mpr ⟨span (tf + 48) 4 ++ span tf 68, rfl, ?_⟩
          intro a
          simp only [Kernel.FrameLooks, List.mem_append, hlt, true_and]
      case faults =>
        intro a ha hnone
        by_cases hfirst : ∃ i < 4, s.translate pg (tf + 48 + BitVec.ofNat 32 i) = none
        · obtain ⟨addr, heq⟩ := kernLoad32_fault hcur henvpg (tf + 48) hfirst
          exact ⟨addr, hrun.trans (bind_of_error heq)⟩
        have heq1 := kernLoad32_run hcur henvpg (tf + 48)
          (fun i hi hn => hfirst ⟨i, hi, hn⟩)
        obtain ha | ⟨hlt, ha⟩ := ha
        · obtain ⟨i, hi, rfl⟩ := mem_span.mp ha
          exact (hfirst ⟨i, hi, hnone⟩).elim
        · obtain ⟨i, hi, rfl⟩ := mem_span.mp ha
          obtain ⟨addr, heq⟩ := kernLoadWords_fault (s := s.readAll (span (tf + 48) 4)) hcur henvpg
            tf 17 ⟨i, hi, hnone⟩
          refine ⟨addr, ?_⟩
          rw [hrun, bind_of_eq heq1, if_neg (Nat.not_le_of_lt hlt)]
          exact bind_of_error heq

/-- Printing a string reads what is looked at. -/
theorem putString_readsExactly (fuel : Nat) (p : Word) (precision : Int) :
  ReadsExactly pg (fun a => ∃ i < fuel, s.LooksAtChar p precision i ∧ a = p + BitVec.ofNat 32 i)
    (putString fuel p precision) s
  := by
  constructor
  case ends =>
    intro hmap
    obtain ⟨vas, out, heq, hvas⟩ := putString_run hcur henvpg
      (fun i hi hlook => hmap _ ⟨i, hi, hlook, rfl⟩)
    exact (ends_of_eq heq).mpr ⟨vas, rfl, hvas⟩
  case faults =>
    rintro _ ⟨i, hi, hlook, rfl⟩ hnone
    exact putString_fault hcur henvpg ⟨i, hi, hlook, hnone⟩

end Readers

/-- `sys_cputs` reads a string that passes the check. If the string does not pass, it goes on with
another environment. -/
theorem sysCputs_readsExactly (h : Wf avail held own s) {e : Fin NENV}
    (hcur : s.curenv = some e.val) (hpg : s.pgdir e = some pg) (hfits : s.Fits avail own)
    (va len : Word) (hgo : (∀ i < len.toNat, s.Passes pg (PTE_P ||| PTE_U) (va + BitVec.ofNat 32 i))
      ∨ s.OtherAlive e) :
  ReadsExactly pg (s.StringLooks pg va len) (sysCputs va len) s
  := by
  obtain ⟨hlive, henvpg⟩ := Kernel.pgdir_eq_some hpg
  have hperm : PTE_P ||| PTE_U ||| PTE_U ||| PTE_P = PTE_P ||| PTE_U := by decide
  have hassert := userMemAssert_ok h hpg va len (PTE_P ||| PTE_U)
  rw [hperm] at hassert
  obtain ⟨hall, heq⟩ | ⟨⟨i, hi, hno⟩, a, heq⟩ := hassert
  · have hrun : sysCputs va len s = cprintfString len va s := by
      rw [sysCputs, bind_of_eq (curenv_eq hcur), bind_of_eq heq]
    by_cases hva : va = 0
    · have hnull : Unread (putNull len.toInt) s := by rw [Unread, putNull, ends_modify]
      rw [cprintfString, if_pos hva] at hrun
      exact (hnull.readsExactly (fun a ha => ha.2.1 hva)).of_run_eq hrun
    · rw [cprintfString, if_neg hva] at hrun
      have hlooks : s.StringLooks pg va len = fun a => ∃ i < 2 ^ 32,
          s.LooksAtChar va len.toInt i ∧ a = va + BitVec.ofNat 32 i := by
        funext a
        rw [Kernel.StringLooks, eq_iff_iff]
        exact ⟨fun ha => ha.2.2, fun ha => ⟨hall, hva, ha⟩⟩
      rw [hlooks]
      exact (putString_readsExactly hcur henvpg _ _ _).of_run_eq hrun
  · have hwf : Wf avail held own { s with userMemCheckAddr := a } :=
      h.congr rfl rfl rfl rfl rfl rfl rfl
    have halive : s.OtherAlive e := hgo.resolve_left (fun hall => hno (hall i hi))
    obtain ⟨_, s1, -, hdone, -⟩ | ⟨s1, hleave, ⟨s2, hfreed, -, hsw⟩, -⟩ :=
      (envDestroy_ok hwf ⟨e.isLt, hlive⟩ hfits (fun _ => halive)).cases
    · -- the current environment is not only marked
      cases hdone with
      | dying _ hother => exact (hother hcur).elim
      | freed _ hother => exact (hother hcur).elim
    · have hrun : sysCputs va len s = .error (.leave s1) := by
        rw [sysCputs, bind_of_eq (curenv_eq hcur)]
        exact bind_of_error (heq.trans hleave)
      exact (unread_of_leave hrun (hsw.derefs.trans hfreed.derefs)).readsExactly
        (fun a ha => hno (ha.1 i hi))

/-! ### The handlers -/

/-- The addresses the handler of a system call of the environment `cur` with the directory `pg`
reads. -/
def Kernel.CallLooks (s : Kernel) (cur pg : Nat) (a1 a2 : Word) : Syscall → Word → Prop
  | .SYS_cputs, a => s.StringLooks pg a1 a2 a
  | .SYS_env_set_trapframe, a => s.findEnv cur a1 true ≠ none ∧ s.FrameLooks a2 a
  | _, _ => False

/-- Whether a handler may find no environment to use, and use what lies behind the table. -/
def Kernel.RunsOut (s : Kernel) : Syscall → Prop
  | .SYS_exofork => s.envFreeList = some NENV
  | .SYS_env_mkguest => s.envFreeList = some NENV
  | _ => False

/-- Whether an environment is left to go on with when the handler gives up the environment `cur`
with the directory `pg`: for a string that does not pass the check, for an environment that
destroys itself, and for one that yields. -/
def Kernel.GoesOn (s : Kernel) (cur pg : Nat) (a1 a2 : Word) : Syscall → Prop
  | .SYS_cputs => (∀ i < a2.toNat, s.Passes pg (PTE_P ||| PTE_U) (a1 + BitVec.ofNat 32 i))
    ∨ s.OtherAlive cur
  | .SYS_env_destroy => s.findEnv cur a1 true = some cur → s.OtherAlive cur
  | .SYS_yield => s.SomeAlive
  | _ => True

/-- A creation of an environment uses what lies behind the table when none is free. -/
theorem envAllocType_full (hfull : s.envFreeList = some NENV) (type : EnvType) (parentId : Word) :
  envAllocType type parentId s = .error (.fault (KERNBASE + NENV))
  := by
  rw [envAllocType, get_bind]
  simp only [hfull]
  rw [if_pos (Nat.le_refl NENV)]
  rfl

section Handlers

variable (h : Wf avail held own s) {e : Fin NENV} (hcur : s.curenv = some e.val)
  (hpg : s.pgdir e = some pg) (hfits : s.Fits avail own) (a1 a2 a3 a4 a5 : Word)
include hcur

theorem handler_runsOut {sys : Syscall} (hout : s.RunsOut sys) :
  ∃ addr, sys.handler a1 a2 a3 a4 a5 s = .error (.fault addr)
  := by
  cases sys with
  | SYS_exofork =>
      use KERNBASE + NENV
      change sysExofork s = _
      rw [sysExofork, bind_of_eq (curenv_eq hcur), get_bind]
      exact bind_of_error (envAllocType_full hout _ _)
  | SYS_env_mkguest =>
      use KERNBASE + NENV
      change sysEnvMkguest a1 a2 s = _
      rw [sysEnvMkguest, bind_of_eq (curenv_eq hcur), get_bind]
      exact bind_of_error (envAllocType_full hout _ _)
  | _ => exact hout.elim

include h hpg hfits

/-- When no environment is left to go on with, the kernel stays in its monitor. -/
theorem handler_stuck {sys : Syscall} (hgo : ¬ s.GoesOn e pg a1 a2 sys) :
  sys.handler a1 a2 a3 a4 a5 s = noRunnable s
  := by
  have hlive : s.Live e := ⟨e.isLt, (Kernel.pgdir_eq_some hpg).1⟩
  cases sys with
  | SYS_cputs =>
      obtain ⟨hnopass, hnone⟩ := not_or.mp hgo
      have hperm : PTE_P ||| PTE_U ||| PTE_U ||| PTE_P = PTE_P ||| PTE_U := by decide
      have hassert := userMemAssert_ok h hpg a1 a2 (PTE_P ||| PTE_U)
      rw [hperm] at hassert
      obtain ⟨hall, -⟩ | ⟨-, a, heq⟩ := hassert
      · exact (hnopass hall).elim
      · have hwf : Wf avail held own { s with userMemCheckAddr := a } :=
          h.congr rfl rfl rfl rfl rfl rfl rfl
        obtain ⟨s1, -, hstuck⟩ := envDestroy_stuck hwf hlive hfits hcur hnone
        have hrun : sysCputs a1 a2 s = noRunnable s := by
          rw [sysCputs, bind_of_eq (curenv_eq hcur)]
          exact bind_of_error (heq.trans hstuck)
        exact bind_of_error hrun
  | SYS_env_destroy =>
      obtain ⟨hself, hnone⟩ := Classical.not_imp.mp hgo
      obtain ⟨s1, -, hstuck⟩ := envDestroy_stuck h hlive hfits hcur hnone
      change sysEnvDestroy a1 s = _
      rw [sysEnvDestroy, bind_of_eq (envid2env_eq hcur a1 true), hself]
      exact bind_of_error hstuck
  | SYS_yield =>
      have hyield : sysYield s = noRunnable s := schedYield_stuck hgo
      exact bind_of_error hyield
  | _ => exact (hgo trivial).elim

/-- What the handlers read, and that they neither panic nor fault otherwise. -/
theorem handler_readsExactly {sys : Syscall} (hout : ¬ s.RunsOut sys)
    (hgo : s.GoesOn e pg a1 a2 sys) :
  ReadsExactly pg (s.CallLooks e pg a1 a2 sys) (sys.handler a1 a2 a3 a4 a5) s
  := by
  obtain ⟨hst, henvpg⟩ := Kernel.pgdir_eq_some hpg
  have hlive : s.Live e := ⟨e.isLt, hst⟩
  cases sys with
  | SYS_cputs => exact (sysCputs_readsExactly h hcur hpg hfits a1 a2 hgo).bind_pure 0
  | SYS_env_set_trapframe => exact sysEnvSetTrapframe_readsExactly hcur henvpg a1 a2
  | SYS_env_destroy =>
      exact (sysEnvDestroy_unread h hcur hlive hfits a1 hgo).readsExactly (fun _ ha => ha)
  | SYS_exofork => exact (sysExofork_unread h hcur hout).readsExactly (fun _ ha => ha)
  | SYS_env_mkguest =>
      exact (sysEnvMkguest_unread h hcur hout a1 a2).readsExactly (fun _ ha => ha)
  | SYS_cgetc => exact (sysCgetc_unread s).readsExactly (fun _ ha => ha)
  | SYS_getenvid => exact (sysGetenvid_unread hcur).readsExactly (fun _ ha => ha)
  | SYS_page_alloc =>
      exact (sysPageAlloc_unread h hcur hlive a1 a2 a3).readsExactly (fun _ ha => ha)
  | SYS_page_map =>
      exact (sysPageMap_unread h hcur hlive a1 a2 a3 a4 a5).readsExactly (fun _ ha => ha)
  | SYS_page_unmap => exact (sysPageUnmap_unread h hcur hlive a1 a2).readsExactly (fun _ ha => ha)
  | SYS_env_set_status => exact (sysEnvSetStatus_unread hcur a1 a2).readsExactly (fun _ ha => ha)
  | SYS_env_set_pgfault_upcall =>
      exact (sysEnvSetPgfaultUpcall_unread hcur a1 a2).readsExactly (fun _ ha => ha)
  | SYS_yield =>
      have hyield : Unread sysYield s := schedYield_unread h hgo
      exact (hyield.readsExactly (fun _ ha => ha)).bind_pure 0
  | SYS_ipc_try_send =>
      exact (sysIpcTrySend_unread h hcur hlive a1 a2 a3 a4).readsExactly (fun _ ha => ha)
  | SYS_ipc_recv => exact (sysIpcRecv_unread hcur a1).readsExactly (fun _ ha => ha)

end Handlers

/-! ### The dispatcher -/

/-- A system call ends without a panic and without an access the environment with the directory
`pg` may not make, an unknown number is refused, and the result is that of the handler. -/
structure SyscallSound (pg : Nat) (syscallno a1 a2 a3 a4 a5 : Word) (s : Kernel) : Prop where
  harmless : Harmless (fun a => s.userReadable pg a = true) (syscall syscallno a1 a2 a3 a4 a5) s
  unknown : Syscall.ofWord syscallno = none →
    ∃ r, syscall syscallno a1 a2 a3 a4 a5 s = .ok (r, s) ∧ isError r = true
  known : ∀ sys, Syscall.ofWord syscallno = some sys → ∀ r s',
    syscall syscallno a1 a2 a3 a4 a5 s = .ok (r, s') →
    sys.handler a1 a2 a3 a4 a5 s = .ok (r, s')

/-- For which arguments a system call of the environment `cur` with the directory `pg` is
sound: what it reads may be read, there is an environment to use and one to go on with, and a
result that is not passed on is not an error. -/
def Kernel.SoundCall (s : Kernel) (cur pg : Nat) (a1 a2 : Word) : Option Syscall → Prop
  | none => False
  | some sys => (∀ a, s.CallLooks cur pg a1 a2 sys a → s.userReadable pg a = true)
    ∧ ¬ s.RunsOut sys ∧ s.GoesOn cur pg a1 a2 sys
    ∧ (sys = .SYS_env_destroy → s.findEnv cur a1 true ≠ none)

section Dispatch

variable {syscallno a1 a2 a3 a4 a5 : Word}

/-- An unknown number is never refused. -/
theorem not_syscallSound_of_unknown (hno : Syscall.ofWord syscallno = none) :
  ¬ SyscallSound pg syscallno a1 a2 a3 a4 a5 s
  := by
  intro h
  obtain ⟨r, heq, -⟩ := h.unknown hno
  rw [syscall, hno] at heq
  cases heq

/-- All results but that of `sys_env_destroy` are passed on. -/
theorem syscall_eq_handler {sys : Syscall} (hno : Syscall.ofWord syscallno = some sys)
    (hne : sys ≠ .SYS_env_destroy) :
  syscall syscallno a1 a2 a3 a4 a5 = sys.handler a1 a2 a3 a4 a5
  := by
  rw [syscall, hno]
  cases sys
  case SYS_env_destroy => exact (hne rfl).elim
  all_goals rfl

theorem syscall_destroy (hno : Syscall.ofWord syscallno = some .SYS_env_destroy) :
  syscall syscallno a1 a2 a3 a4 a5 = (do
    let _ ← sysEnvDestroy a1
    pure 0 : Prog Kernel Word)
  := by
  rw [syscall, hno]

/-- When the environment exists, the handler returns `0`, as the dispatcher does. -/
theorem sysEnvDestroy_zero {e : Nat} (r : Word) (t : Kernel) (hcur : s.curenv = some cur)
    (hfind : s.findEnv cur a1 true = some e) (heq : sysEnvDestroy a1 s = .ok (r, t)) :
  r = 0
  := by
  rw [sysEnvDestroy, bind_of_eq (envid2env_eq hcur a1 true), hfind] at heq
  simp only at heq
  cases hrun : envDestroy e s with
  | ok p =>
      rw [bind_of_eq (show envDestroy e s = .ok (p.1, p.2) from hrun)] at heq
      exact (ok_inj heq (pure_run (a := (0 : Word)))).1
  | error stop =>
      rw [bind_of_error hrun] at heq
      cases heq

end Dispatch

section Sound

variable (h : Wf avail held own s) {e : Fin NENV} (hcur : s.curenv = some e.val)
  (hpg : s.pgdir e = some pg) (hfits : s.Fits avail own)
include h hcur hpg hfits

/-- What the dispatcher reads is what the handler reads. -/
theorem syscall_readsExactly {sys : Syscall} {syscallno : Word}
    (hno : Syscall.ofWord syscallno = some sys) (hout : ¬ s.RunsOut sys)
    (a1 a2 a3 a4 a5 : Word) (hgo : s.GoesOn e pg a1 a2 sys) :
  ReadsExactly pg (s.CallLooks e pg a1 a2 sys) (syscall syscallno a1 a2 a3 a4 a5) s
  := by
  have hhandler := handler_readsExactly h hcur hpg hfits a1 a2 a3 a4 a5 hout hgo
  by_cases hne : sys = .SYS_env_destroy
  · subst hne
    rw [syscall_destroy hno]
    exact hhandler.bind_pure 0
  · rw [syscall_eq_handler hno hne]
    exact hhandler

/-- When no environment is left to go on with, the kernel stays in its monitor. -/
theorem syscall_stuck {sys : Syscall} {syscallno : Word}
    (hno : Syscall.ofWord syscallno = some sys) (a1 a2 a3 a4 a5 : Word)
    (hgo : ¬ s.GoesOn e pg a1 a2 sys) :
  syscall syscallno a1 a2 a3 a4 a5 s = noRunnable s
  := by
  have hhandler := handler_stuck h hcur hpg hfits a1 a2 a3 a4 a5 hgo
  by_cases hne : sys = .SYS_env_destroy
  · subst hne
    rw [syscall_destroy hno]
    exact bind_of_error hhandler
  · rw [syscall_eq_handler hno hne]
    exact hhandler

/-- A system call with any number and any arguments is sound exactly under the condition on
them. -/
theorem syscall_sound_iff (syscallno a1 a2 a3 a4 a5 : Word) :
  SyscallSound pg syscallno a1 a2 a3 a4 a5 s
    ↔ s.SoundCall e pg a1 a2 (Syscall.ofWord syscallno)
  := by
  cases hno : Syscall.ofWord syscallno with
  | none => exact iff_of_false (not_syscallSound_of_unknown hno) (fun hfalse => hfalse)
  | some sys =>
      by_cases hout : s.RunsOut sys
      · -- the handler faults
        refine iff_of_false ?_ (fun hsound => hsound.2.1 hout)
        intro hsound
        obtain ⟨addr, heq⟩ := handler_runsOut hcur a1 a2 a3 a4 a5 hout
        have hne : sys ≠ .SYS_env_destroy := by
          rintro rfl
          exact hout
        rw [← syscall_eq_handler hno hne] at heq
        exact not_harmless_of_fault heq hsound.harmless
      by_cases hgo : s.GoesOn e pg a1 a2 sys
      case neg =>
        refine iff_of_false ?_ (fun hsound => hgo hsound.2.2.1)
        exact fun hsound => not_harmless_of_stuck
          (syscall_stuck h hcur hpg hfits hno a1 a2 a3 a4 a5 hgo) hsound.harmless
      have hreads := syscall_readsExactly h hcur hpg hfits hno hout a1 a2 a3 a4 a5 hgo
      constructor
      · intro hsound
        refine ⟨hreads.harmless_readable_iff.mp hsound.harmless, hout, hgo, ?_⟩
        rintro rfl hfind
        -- the dispatcher returns `0` though the handler has returned an error
        have hrun : sysEnvDestroy a1 s = .ok (-E_BAD_ENV, s) := by
          rw [sysEnvDestroy, bind_of_eq (envid2env_eq hcur a1 true), hfind]
          rfl
        have hret : syscall syscallno a1 a2 a3 a4 a5 s = .ok (0, s) := by
          rw [syscall_destroy hno, bind_of_eq hrun]
          rfl
        have hsame := (ok_inj hrun (hsound.known _ hno _ _ hret)).1
        exact absurd hsame (by decide)
      · rintro ⟨hread, -, -, hfind⟩
        constructor
        case harmless => exact hreads.harmless_readable_iff.mpr hread
        case unknown =>
          intro hnone
          rw [hno] at hnone
          cases hnone
        case known =>
          intro sys' hsys' r s' hret
          rw [hno] at hsys'
          obtain rfl := Option.some.inj hsys'
          by_cases hne : sys = .SYS_env_destroy
          · subst hne
            obtain ⟨e', he'⟩ := Option.ne_none_iff_exists'.mp (hfind rfl)
            change sysEnvDestroy a1 s = _
            rw [syscall_destroy hno] at hret
            cases hrun : sysEnvDestroy a1 s with
            | ok p =>
                rw [bind_of_eq (show sysEnvDestroy a1 s = .ok (p.1, p.2) from hrun)] at hret
                rw [← hret, ← sysEnvDestroy_zero p.1 p.2 hcur he' hrun]
                rfl
            | error stop =>
                rw [bind_of_error hrun] at hret
                cases hret
          · rw [← syscall_eq_handler hno hne]
            exact hret

end Sound

/-- An environment that was started after boot may ask for its identifier. -/
theorem syscall_sound_getenvid :
  ∃ (e : Fin NENV) (pg : Nat) (s : Kernel), Faulting (bootAvail 4) e pg 0xEEBFDF00 0x00800020 s
    ∧ SyscallSound pg 2 0 0 0 0 0 s
  := by
  obtain ⟨e, pg, s, h⟩ := faulting_ok 0xEEBFDF00 0x00800020
  refine ⟨e, pg, s, h, (syscall_sound_iff h.wf h.curenv h.pgdir h.fits 2 0 0 0 0 0).mpr ?_⟩
  exact ⟨fun _ ha => ha.elim, fun hout => hout, trivial, fun hsys => by cases hsys⟩

/-- It is not refused when it makes the system call with the number behind the last one. -/
theorem not_syscall_sound :
  ¬ ∀ (avail held : Finset Nat) (own : Nat → Nat) (s : Kernel) (e : Fin NENV) (pg : Nat)
    (syscallno a1 a2 a3 a4 a5 : Word), Wf avail held own s → s.Fits avail own →
    s.curenv = some e.val → s.pgdir e = some pg →
    SyscallSound pg syscallno a1 a2 a3 a4 a5 s
  := by
  intro hall
  obtain ⟨e, pg, s, h⟩ := faulting_ok 0xEEBFDF00 0x00800020
  exact not_syscallSound_of_unknown rfl
    (hall _ _ _ s e pg 15 0 0 0 0 0 h.wf h.fits h.curenv h.pgdir)

end Jos
