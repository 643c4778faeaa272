import Jos.Kern.UserCheck
import Jos.Kern.UserMem

/-!
# What `sys_cputs` prints

`sys_cputs` is to print the bytes of a range that its environment may read.  It checks the
range, and then has it printed as a string with the conversion `%.*s`, which stops at a null
character, reads a character before it looks at the precision, and takes a length from `2 ^ 31`
on for no precision at all.  So whatever is in the range, either not all of it is printed or the
byte behind it is read.  Only a null pointer is printed without reading anything.
-/

namespace Jos

open Bytes Prog

variable {s s' : Kernel} {cur pg : Nat} {va len : Word}

/-! ### What the call is for -/

/-- The environment with the page directory `pg` may read the range `[va, va + len)`, which lies
below `ULIM`, with page tables in pages that exist. -/
structure Kernel.ReadableRange (s : Kernel) (pg : Nat) (va len : Word) : Prop where
  below : ∀ i < len.toNat, va.toNat + i < ULIM
  readable : ∀ i < len.toNat, s.userReadable pg (va + BitVec.ofNat 32 i)
  tables : ∀ i < len.toNat, s.Walkable pg (va + BitVec.ofNat 32 i)

/-- The call returns, all bytes of the range were sent to the console in order and nothing else
was, and user memory was read inside the range only. -/
def CputsExact (s : Kernel) (va len : Word) : Prop :=
  ∃ s', sysCputs va len s = .ok ((), s')
    ∧ s'.console = s.console
      ++ (List.range len.toNat).map (fun i => s.byteAt (va + BitVec.ofNat 32 i))
    ∧ ∃ ds, s'.derefs = ds ++ s.derefs
      ∧ ∀ a ∈ ds, ∃ i < len.toNat, a = va + BitVec.ofNat 32 i

/-- The string that is printed for a null pointer, `"(null)"`. -/
def nullString : List Byte := [0x28, 0x6e, 0x75, 0x6c, 0x6c, 0x29]

/-! ### The check -/

/-- What an environment may read passes the check. -/
theorem Kernel.passes_of_readable (h : s.userReadable pg va) (hlt : va.toNat < ULIM) :
  s.Passes pg (PTE_P ||| PTE_U ||| PTE_U ||| PTE_P) va
  := by
  unfold Kernel.userReadable Kernel.allows Kernel.entries at h
  simp only at h
  cases hpd : present (s.entry pg (PDX va)) with
  | false =>
      rw [hpd, if_neg (by decide)] at h
      cases h
  | true =>
      rw [hpd, if_pos rfl] at h
      cases hpt : present (s.entry (ptePage (s.entry pg (PDX va))) (PTX va)) with
      | false =>
          rw [hpt, if_neg (by decide)] at h
          cases h
      | true =>
          rw [hpt, if_pos rfl] at h
          have hboth := of_decide_eq_true h
          refine ⟨_, refOf_eq_some.mpr ⟨of_decide_eq_true hpd, rfl⟩, hlt, ?_⟩
          intro hzero
          have hu : (PTE_P ||| PTE_U ||| PTE_U ||| PTE_P) &&& PTE_U = PTE_U := by decide
          have hzero' := congrArg (fun w => w &&& PTE_U) hzero
          simp only [BitVec.and_assoc, hu, hboth.2] at hzero'
          exact absurd hzero' (by decide)

/-- A range that may be read passes the check. -/
theorem Kernel.ReadableRange.check (h : s.ReadableRange pg va len) :
  userMemCheck pg va len (PTE_P ||| PTE_U ||| PTE_U ||| PTE_P) s = .ok (0, s)
  := by
  have hpass : ∀ i < len.toNat,
      s.Passes pg (PTE_P ||| PTE_U ||| PTE_U ||| PTE_P) (va + BitVec.ofNat 32 i) := by
    intro i hi
    apply Kernel.passes_of_readable (h.readable i hi)
    rw [BitVec.toNat_add, BitVec.toNat_ofNat, Nat.add_mod_mod]
    exact Nat.lt_of_le_of_lt (Nat.mod_le _ _) (h.below i hi)
  have hverdict := (checkByte_judges s pg va (PTE_P ||| PTE_U ||| PTE_U ||| PTE_P)
    len.toNat).verdict
  rw [userMemCheck]
  generalize hr : findUp 0 len.toNat (checkByte pg va _) s = r at hverdict
  cases hverdict with
  | accepted hall =>
      rw [bind_of_eq hr]
      rfl
  | refused i hi hbefore hW hA => exact (hA (hpass i hi)).elim
  | stuck i e hi hbefore hW => exact (hW (h.tables i hi)).elim

theorem Kernel.ReadableRange.assert (h : s.ReadableRange pg va len)
    (hpg : (s.envs cur).envPgdir = some pg) :
  userMemAssert cur va len (PTE_P ||| PTE_U) s = .ok ((), s)
  := by
  have hdir : (Prog.orElse (s.envs cur).envPgdir (fault 0) : Prog Kernel Nat) s = .ok (pg, s) := by
    rw [hpg]
    rfl
  rw [userMemAssert, get_bind, bind_of_eq hdir, bind_of_eq h.check, if_neg (by decide)]
  rfl

/-! ### Printing a string -/

/-- From `s` to `s'` something was printed, and something was read. -/
def Prints (s s' : Kernel) : Prop :=
  ∃ ds out, s'.derefs = ds ++ s.derefs ∧ s'.console = s.console ++ out

theorem Prints.composes :
  Composes Prints
  := by
  constructor
  case refl =>
    intro s
    exact ⟨[], [], rfl, (List.append_nil _).symm⟩
  case trans =>
    rintro s₁ s₂ s₃ ⟨ds, out, hds, hout⟩ ⟨ds', out', hds', hout'⟩
    refine ⟨ds' ++ ds, out ++ out', ?_, ?_⟩
    · rw [hds', hds, List.append_assoc]
    · rw [hout', hout, List.append_assoc]

theorem cputchar_prints (ch : Byte) :
  Keeps Prints (cputchar ch)
  := keeps_modify (fun _ => ⟨[], [ch], rfl, rfl⟩)

/-- Reading a byte, if it succeeds, is recorded. -/
theorem kernLoad_accessed (va : Word) (s : Kernel) :
  (kernLoad va).MayEnd s (fun _ s' => s' = s.accessed va) (fun _ => False)
  := by
  have hdir : Keeps (fun s s' => s' = s) curPgdir := by
    have hR : Composes (fun s s' : Kernel => s' = s) :=
      ⟨fun _ => rfl, fun h h' => h'.trans h⟩
    have horelse : ∀ (o : Option Nat), Keeps (fun s s' : Kernel => s' = s)
        (Prog.orElse o (fault 0)) :=
      fun o => keeps_orElse hR o (keeps_fault 0)
    apply keeps_bind hR
    · exact keeps_bind hR (keeps_get hR) (fun _ => horelse _)
    · intro e
      exact keeps_bind hR (keeps_get hR) (fun _ => horelse _)
  rw [kernLoad, mayEnd_bind]
  apply (hdir s).mono _ (fun _ h => h)
  rintro pgdir _ rfl
  rw [mayEnd_bind, mayEnd_modify, mayEnd_bind, mayEnd_get, mayEnd_bind, mayEnd_orElse]
  constructor
  · intro pa _
    rw [mayEnd_pure]
    rfl
  · intro _
    exact mayEnd_fault _

theorem kernLoad_prints (va : Word) :
  Keeps Prints (kernLoad va)
  := by
  intro s
  apply (kernLoad_accessed va s).mono _ (fun _ h => h)
  rintro _ _ rfl
  exact ⟨[va], [], rfl, (List.append_nil _).symm⟩

theorem putString_prints (fuel : Nat) (p : Word) (precision : Int) :
  Keeps Prints (putString fuel p precision)
  := by
  have hR := Prints.composes
  induction fuel generalizing p precision with
  | zero => exact keeps_pure hR ()
  | succ fuel ih =>
      apply keeps_bind hR (kernLoad_prints p)
      intro ch
      apply keeps_ite (keeps_pure hR ())
      apply keeps_ite
      · exact keeps_bind hR (cputchar_prints ch) (fun _ => ih (p + 1) precision)
      · apply keeps_ite
        · exact keeps_bind hR (cputchar_prints ch) (fun _ => ih (p + 1) (precision - 1))
        · exact keeps_pure hR ()

/-- If the precision, if there is one, is `n` at least, then fewer than `n` characters are
printed, or the byte behind them is read. -/
theorem putString_overreads {n fuel : Nat} (hn : n < fuel) {precision : Int}
    (hp : precision < 0 ∨ (n : Int) ≤ precision) (p : Word) (s : Kernel) :
  (putString fuel p precision).MayEnd s (fun _ s' => ∃ ds out, s'.derefs = ds ++ s.derefs
    ∧ s'.console = s.console ++ out ∧ (out.length < n ∨ p + BitVec.ofNat 32 n ∈ ds))
    (fun _ => False)
  := by
  induction n generalizing fuel p s precision with
  | zero =>
      obtain ⟨fuel, rfl⟩ := Nat.exists_eq_succ_of_ne_zero (Nat.ne_of_gt hn)
      -- the first byte is read, whatever happens then
      rw [putString, mayEnd_bind]
      apply (kernLoad_accessed p s).mono _ (fun _ h => h)
      rintro ch _ rfl
      have hrest : Keeps Prints (if ch = 0 then pure ()
          else if precision < 0 then do cputchar ch; putString fuel (p + 1) precision
          else if precision - 1 ≥ 0 then do cputchar ch; putString fuel (p + 1) (precision - 1)
          else pure ()) := by
        have hR := Prints.composes
        apply keeps_ite (keeps_pure hR ())
        apply keeps_ite
        · exact keeps_bind hR (cputchar_prints ch) (fun _ => putString_prints _ _ _)
        · apply keeps_ite
          · exact keeps_bind hR (cputchar_prints ch) (fun _ => putString_prints _ _ _)
          · exact keeps_pure hR ()
      apply (hrest (s.accessed p)).mono _ (fun _ h => h)
      rintro _ s' ⟨ds, out, hds, hout⟩
      refine ⟨ds ++ [p], out, ?_, hout, Or.inr ?_⟩
      · rw [hds, List.append_assoc]
        rfl
      · have hzero : p + BitVec.ofNat 32 0 = p := BitVec.add_zero p
        rw [hzero]
        exact List.mem_append_right ds (List.mem_singleton.mpr rfl)
  | succ n ih =>
      obtain ⟨fuel, rfl⟩ := Nat.exists_eq_succ_of_ne_zero (Nat.ne_of_gt (Nat.zero_lt_of_lt hn))
      rw [putString, mayEnd_bind]
      apply (kernLoad_accessed p s).mono _ (fun _ h => h)
      rintro ch _ rfl
      -- the rest starts at the next byte
      have hrest : ∀ precision' : Int, (precision' < 0 ∨ (n : Int) ≤ precision') →
          (do cputchar ch; putString fuel (p + 1) precision' : Prog Kernel Unit).MayEnd
            (s.accessed p) (fun _ s' => ∃ ds out, s'.derefs = ds ++ s.derefs
              ∧ s'.console = s.console ++ out
              ∧ (out.length < n + 1 ∨ p + BitVec.ofNat 32 (n + 1) ∈ ds)) (fun _ => False) := by
        intro precision' hp'
        rw [mayEnd_bind, cputchar, mayEnd_modify]
        apply (ih (by omega) hp' (p + 1) _).mono _ (fun _ h => h)
        rintro _ s' ⟨ds, out, hds, hout, hor⟩
        refine ⟨ds ++ [p], ch :: out, ?_, ?_, ?_⟩
        · rw [hds, List.append_assoc]
          rfl
        · rw [hout]
          change s.console ++ [ch] ++ out = _
          rw [List.append_assoc]
          rfl
        · obtain hlt | hmem := hor
          · left
            rw [List.length_cons]
            omega
          · right
            apply List.mem_append_left
            have hnext : p + BitVec.ofNat 32 (n + 1) = p + 1 + BitVec.ofNat 32 n := by
              rw [Nat.add_comm n 1, BitVec.ofNat_add, BitVec.add_assoc]
              rfl
            rw [hnext]
            exact hmem
      rw [mayEnd_ite]
      constructor
      · intro _
        rw [mayEnd_pure]
        exact ⟨[p], [], rfl, (List.append_nil _).symm, Or.inl (Nat.succ_pos n)⟩
      · intro _
        rw [mayEnd_ite]
        constructor
        · intro hneg
          exact hrest precision (Or.inl hneg)
        · intro hpos
          rw [mayEnd_ite]
          constructor
          · intro _
            apply hrest
            right
            omega
          · intro hstop
            omega

/-! ### The system call -/

section Call

variable (hcur : s.curenv = some cur) (hpg : (s.envs cur).envPgdir = some pg)
  (h : s.ReadableRange pg va len)
include hcur hpg h

/-- Behind the check the call prints. -/
theorem sysCputs_eq :
  sysCputs va len s = cprintfString len va s
  := by
  rw [sysCputs, bind_of_eq (curenv_eq hcur), bind_of_eq (h.assert hpg)]

/-- A range that does not start at a null pointer is not printed exactly. -/
theorem not_cputsExact (hva : va ≠ 0) :
  ¬ CputsExact s va len
  := by
  rintro ⟨s', hrun, hconsole, ds, hds, hin⟩
  rw [sysCputs_eq hcur hpg h, cprintfString, if_neg hva] at hrun
  have hprecision : len.toInt < 0 ∨ (len.toNat : Int) ≤ len.toInt := by
    rw [BitVec.toInt_eq_toNat_cond]
    have hlt := len.isLt
    split
    · right
      omega
    · left
      omega
  obtain ⟨ds', out, hds', hout, hor⟩ :=
    (putString_overreads len.isLt hprecision va s).of_eq hrun
  obtain rfl : ds = ds' := List.append_cancel_right (hds.symm.trans hds')
  have hbytes := List.append_cancel_left (hout.symm.trans hconsole)
  obtain hlt | hmem := hor
  · rw [hbytes, List.length_map, List.length_range] at hlt
    omega
  · obtain ⟨i, hi, heq⟩ := hin _ hmem
    have hcancel := congrArg BitVec.toNat ((BitVec.add_right_inj va).mp heq)
    rw [BitVec.toNat_ofNat, BitVec.toNat_ofNat, Nat.mod_eq_of_lt len.isLt,
      Nat.mod_eq_of_lt (Nat.lt_trans hi len.isLt)] at hcancel
    omega

/-- For a null pointer as much of `"(null)"` is printed as the precision allows. -/
theorem cputsExact_null (hva : va = 0) :
  CputsExact s va len ↔
    nullString.take (if len.toInt < 0 then nullString.length else len.toInt.toNat)
      = (List.range len.toNat).map (fun i => s.byteAt (BitVec.ofNat 32 i))
  := by
  subst hva
  have hrun : sysCputs 0 len s = putNull len.toInt s := by
    rw [sysCputs_eq hcur hpg h, cprintfString, if_pos rfl]
  have hzero : ∀ i, (0 : Word) + BitVec.ofNat 32 i = BitVec.ofNat 32 i := fun i => BitVec.zero_add _
  rw [CputsExact, hrun]
  simp only [hzero]
  constructor
  · rintro ⟨s', heq, hconsole, -⟩
    have hs' : { s with console := s.console
        ++ nullString.take (if len.toInt < 0 then nullString.length else len.toInt.toNat) } = s' :=
      (Prod.mk.inj (Except.ok.inj heq)).2
    rw [← hs'] at hconsole
    exact List.append_cancel_left hconsole
  · intro heq
    refine ⟨_, rfl, congrArg (s.console ++ ·) heq, [], rfl, ?_⟩
    intro a ha
    cases ha

/-- The bytes of a range are printed exactly, and nothing else is read, if and only if the range
starts at a null pointer and its bytes are the first of `"(null)"`. -/
theorem sysCputs_exact_iff :
  CputsExact s va len ↔ va = 0 ∧ len.toNat ≤ nullString.length
    ∧ ∀ i < len.toNat, s.byteAt (BitVec.ofNat 32 i) = nullString.getD i 0
  := by
  have h6 : nullString.length = 6 := rfl
  constructor
  · intro hexact
    by_cases hva : va = 0
    · have hout := (cputsExact_null hcur hpg h hva).mp hexact
      have hlen := congrArg List.length hout
      rw [List.length_take, List.length_map, List.length_range] at hlen
      refine ⟨hva, hlen ▸ Nat.min_le_right _ _, ?_⟩
      intro i hi
      have hget := congrArg (fun l => l.getD i 0) hout
      have hin : i < if len.toInt < 0 then nullString.length else len.toInt.toNat :=
        Nat.lt_of_lt_of_le hi (hlen ▸ Nat.min_le_left _ _)
      simp only [List.getD_eq_getElem?_getD, List.getElem?_map, List.getElem?_range hi,
        Option.map_some, Option.getD_some, List.getElem?_take, if_pos hin] at hget
      rw [List.getD_eq_getElem?_getD]
      exact hget.symm
    · exact (not_cputsExact hcur hpg h hva hexact).elim
  · rintro ⟨hva, hle, hbytes⟩
    apply (cputsExact_null hcur hpg h hva).mpr
    have hpos : ¬ len.toInt < 0 ∧ len.toInt.toNat = len.toNat := by
      rw [BitVec.toInt_eq_toNat_cond]
      split
      · constructor
        · omega
        · omega
      · omega
    rw [if_neg hpos.1, hpos.2]
    apply List.ext_getElem
    · rw [List.length_take, List.length_map, List.length_range]
      omega
    · intro i hi hi'
      rw [List.length_map, List.length_range] at hi'
      rw [List.getElem_take, List.getElem_map, List.getElem_range, hbytes i hi',
        List.getD_eq_getElem?_getD, List.getElem?_eq_getElem (by omega)]
      rfl

end Call

/-! ### A range at the end of a page -/

/-- A kernel whose environment has one page, mapped at `0x00400000`, with a letter in its last
byte. -/
def lastByte : Kernel where
  mem := write8 (write32 (write32 (fun _ => 0) (1 * PGSIZE + 4) (page2pa 2 ||| PTE_P ||| PTE_U))
    (2 * PGSIZE) (page2pa 3 ||| PTE_P ||| PTE_U)) (3 * PGSIZE + 4095) 0x61
  npages := 4
  kernPgdir := 0
  envs := fun _ => { envPgdir := some 1 }
  curenv := some 0

theorem lastByte_readable :
  lastByte.ReadableRange 1 0x00400FFF 1
  := by
  constructor
  case below =>
    intro i hi
    obtain rfl : i = 0 := Nat.lt_one_iff.mp hi
    decide
  case readable =>
    intro i hi
    obtain rfl : i = 0 := Nat.lt_one_iff.mp hi
    decide
  case tables =>
    intro i hi
    obtain rfl : i = 0 := Nat.lt_one_iff.mp hi
    intro pt hpt
    have hpt' : refOf (lastByte.entry 1 (PDX (0x00400FFF + BitVec.ofNat 32 0))) = some 2 := by decide
    rw [hpt'] at hpt
    cases hpt
    decide

/-- The letter in the last byte of the page. -/
theorem sysCputs_exact_iff_last :
  CputsExact lastByte 0x00400FFF 1 ↔ (0x00400FFF : Word) = 0 ∧ (1 : Word).toNat ≤ nullString.length
    ∧ ∀ i < (1 : Word).toNat, lastByte.byteAt (BitVec.ofNat 32 i) = nullString.getD i 0
  := sysCputs_exact_iff (s := lastByte) rfl rfl lastByte_readable

/-- It is not printed exactly: the byte behind the page is read. -/
theorem sysCputs_overreads_last :
  ¬ CputsExact lastByte 0x00400FFF 1
  := not_cputsExact (s := lastByte) rfl rfl lastByte_readable (by decide)

end Jos
