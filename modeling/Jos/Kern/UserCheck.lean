import Jos.Kern.Sched
import Jos.Kern.UserStore

/-!
# Checking user memory

What `user_mem_check` decides about a range of user memory, and what `user_mem_assert`
does about it: it returns when every page of the range has one of the flags asked for, and
destroys the environment otherwise.
-/

namespace Jos

open Bytes Prog

variable {avail held : Finset Nat} {own : Nat → Nat} {s s' : Kernel}
  {pg : Nat} {va : Word}

/-! ### Walking -/

/-- Whether the page table of `va`, if it has one, is in a page that exists. -/
def Kernel.Walkable (s : Kernel) (pg : Nat) (va : Word) : Prop :=
  ∀ pt, refOf (s.entry pg (PDX va)) = some pt → pt < s.npages

/-- Walking to an address whose page table is in no page that exists. -/
theorem pgdirWalk_stuck (h : ¬ s.Walkable pg va) :
  ∃ e, pgdirWalk pg va false s = .error e
  := by
  simp only [Kernel.Walkable, not_forall] at h
  obtain ⟨pt, hpt, hlt⟩ := h
  obtain ⟨hp, hpage⟩ := refOf_eq_some.mp hpt
  have hk : s.npages ≤ PGNUM (PTE_ADDR (s.entry pg (PDX va))) := by
    rw [show PGNUM (PTE_ADDR (s.entry pg (PDX va))) = pt from hpage]
    omega
  use .panic "KADDR called with invalid pa"
  rw [pgdirWalk, get_bind, if_neg hp]
  simp only [KADDR, bind, StateT.bind, Except.bind, get, getThe, MonadStateOf.get, StateT.get, pure,
    Except.pure, if_pos hk]
  rfl

/-- Walking to an address whose page table exists, if it has one. -/
theorem pgdirWalk_walkable (h : s.Walkable pg va) :
  pgdirWalk pg va false s = .ok ((refOf (s.entry pg (PDX va))).map (fun pt => (pt, PTX va)), s)
  := by
  cases hpt : refOf (s.entry pg (PDX va)) with
  | none => exact pgdirWalk_eq_none hpt
  | some pt => exact pgdirWalk_eq_some false hpt (h pt hpt)

/-! ### Checks that go from entry to entry -/

/-- What the steps of a check do at the addresses `addr 0`, ..., `addr (n - 1)`: they give up
where the page table `W` cannot be walked, go on where the entry is one that `A` accepts, and
report the address where it is not. -/
structure Judges (s : Kernel) (n : Nat) (body : Nat → Prog Kernel (Option Word))
    (W A : Nat → Prop) (addr : Nat → Word) : Prop where
  stuck : ∀ i < n, ¬ W i → ∃ e, body i s = .error e
  accepts : ∀ i < n, W i → A i → body i s = .ok (none, s)
  refuses : ∀ i < n, W i → ¬ A i →
    body i s = .ok (some (-E_FAULT), { s with userMemCheckAddr := addr i })

/-- How such a check ends: nothing was refused, or the first step that did not go on has
refused its entry or given up. -/
inductive Verdict (s : Kernel) (n : Nat) (W A : Nat → Prop) (addr : Nat → Word) :
    Except (Stop Kernel) (Option Word × Kernel) → Prop where
  | accepted (hall : ∀ i < n, W i ∧ A i) : Verdict s n W A addr (.ok (none, s))
  | refused (i : Nat) (hi : i < n) (hbefore : ∀ j < i, W j ∧ A j) (hW : W i) (hA : ¬ A i) :
      Verdict s n W A addr (.ok (some (-E_FAULT), { s with userMemCheckAddr := addr i }))
  | stuck (i : Nat) (e : Stop Kernel) (hi : i < n) (hbefore : ∀ j < i, W j ∧ A j)
      (hW : ¬ W i) : Verdict s n W A addr (.error e)

/-- The first step that does not go on decides the check. -/
theorem Judges.verdict {n : Nat} {body : Nat → Prog Kernel (Option Word)} {W A : Nat → Prop}
    {addr : Nat → Word} (h : Judges s n body W A addr) :
  Verdict s n W A addr (findUp 0 n body s)
  := by
  -- a step that goes on has accepted its entry
  have hgo : ∀ i < n, body i s = .ok (none, s) → W i ∧ A i := by
    intro i hi heq
    by_cases hW : W i
    · by_cases hA : A i
      · exact ⟨hW, hA⟩
      · rw [h.refuses i hi hW hA] at heq
        cases heq
    · obtain ⟨e, he⟩ := h.stuck i hi hW
      rw [he] at heq
      cases heq
  obtain ⟨hall, heq⟩ | ⟨i, -, hi, hbefore, hne, hsome, herror⟩ := findUp_cases body s 0 n
  · rw [heq]
    apply Verdict.accepted
    intro i hi
    exact hgo i hi (hall i (Nat.zero_le i) (by omega))
  · have hin : i < n := by omega
    have hbefore' : ∀ j < i, W j ∧ A j := by
      intro j hj
      exact hgo j (by omega) (hbefore j (Nat.zero_le j) hj)
    by_cases hW : W i
    · by_cases hA : A i
      · exact (hne (h.accepts i hin hW hA)).elim
      · rw [hsome _ _ (h.refuses i hin hW hA)]
        exact Verdict.refused i hin hbefore' hW hA
    · obtain ⟨e, he⟩ := h.stuck i hin hW
      rw [herror e he]
      exact Verdict.stuck i e hin hbefore' hW

/-! ### The check of a range -/

/-- Whether an address passes the check for the flags `perm`: there is a page table for
it, it is below `ULIM`, and its entry has one of the flags. -/
def Kernel.Passes (s : Kernel) (pg : Nat) (perm va : Word) : Prop :=
  ∃ pt, refOf (s.entry pg (PDX va)) = some pt ∧ va.toNat < ULIM
    ∧ s.entry pt (PTX va) &&& perm ≠ 0

/-- The directory of a live environment refers to pages that exist. -/
theorem Wf.table_lt (h : Wf avail held own s) {e : Fin NENV} {pg d p : Nat}
    (hpg : s.pgdir e = some pg) (hd : d < 1024) (hp : refOf (s.entry pg d) = some p) :
  p < s.npages
  := by
  have hpde : s.pde e d = s.entry pg d := by rw [Kernel.pde, hpg]
  rw [← hpde] at hp
  by_cases hlt : d < NUPDE
  · obtain ⟨l, hl⟩ := h.mem
    exact Kernel.lt_npages hl (x := .table e ⟨d, hlt⟩) hp
  · exact h.dirs.upper e pg hpg d (Nat.le_of_not_lt hlt) hd p hp

theorem Wf.walkable (h : Wf avail held own s) {e : Fin NENV} (hpg : s.pgdir e = some pg)
    (va : Word) :
  s.Walkable pg va
  := by
  intro pt hpt
  apply h.table_lt hpg (PDX_lt va) hpt

/-- The loop of `user_mem_check` goes on at an address that passes, and reports one that does
not. -/
theorem checkByte_judges (s : Kernel) (pg : Nat) (va perm : Word) (n : Nat) :
  Judges s n (checkByte pg va perm) (fun i => s.Walkable pg (va + BitVec.ofNat 32 i))
    (fun i => s.Passes pg perm (va + BitVec.ofNat 32 i)) (fun i => va + BitVec.ofNat 32 i)
  := by
  constructor
  case stuck =>
    intro i _ hwalk
    obtain ⟨e, he⟩ := pgdirWalk_stuck hwalk
    use e
    rw [checkByte]
    simp only [bind, StateT.bind, Except.bind, he]
  case accepts =>
    intro i _ hwalk hpass
    obtain ⟨a, ha⟩ : ∃ a, a = va + BitVec.ofNat 32 i := ⟨_, rfl⟩
    rw [← ha] at hwalk hpass
    obtain ⟨pt, hpt, hlt, hpte⟩ := hpass
    rw [checkByte, ← ha]
    simp only
    rw [bind_of_eq (pgdirWalk_walkable hwalk), get_bind, hpt]
    have hlt' : ¬ ULIM ≤ a.toNat := Nat.not_le_of_lt hlt
    rw [if_neg]
    · rfl
    · simpa [hlt'] using hpte
  case refuses =>
    intro i _ hwalk hno
    obtain ⟨a, ha⟩ : ∃ a, a = va + BitVec.ofNat 32 i := ⟨_, rfl⟩
    rw [← ha] at hwalk hno ⊢
    rw [checkByte, ← ha]
    simp only
    rw [bind_of_eq (pgdirWalk_walkable hwalk), get_bind]
    cases hpt : refOf (s.entry pg (PDX a)) with
    | none => rfl
    | some pt =>
        simp only [Option.map_some]
        rw [if_pos]
        · rfl
        · simp only [ge_iff_le, Bool.or_eq_true, decide_eq_true_eq]
          by_contra hor
          rw [not_or] at hor
          exact hno ⟨pt, hpt, Nat.lt_of_not_le hor.1, hor.2⟩

/-- The check of a range finds an address that does not pass, or all pass. -/
theorem userMemCheck_ok (h : Wf avail held own s) {e : Fin NENV} {pg : Nat}
    (hpg : s.pgdir e = some pg) (va len perm : Word) :
  (userMemCheck pg va len perm s = .ok (0, s)
    ∧ ∀ i < len.toNat, s.Passes pg perm (va + BitVec.ofNat 32 i)) ∨
  (∃ a, userMemCheck pg va len perm s = .ok (-E_FAULT, { s with userMemCheckAddr := a })
    ∧ ∃ i < len.toNat, ¬ s.Passes pg perm (va + BitVec.ofNat 32 i))
  := by
  have hverdict := (checkByte_judges s pg va perm len.toNat).verdict
  rw [userMemCheck]
  generalize hr : findUp 0 len.toNat (checkByte pg va perm) s = r at hverdict
  cases hverdict with
  | accepted hall =>
      left
      constructor
      · rw [bind_of_eq hr]
        rfl
      · intro i hi
        exact (hall i hi).2
  | refused i hi hbefore hW hA =>
      right
      use va + BitVec.ofNat 32 i
      constructor
      · rw [bind_of_eq hr]
        rfl
      · exact ⟨i, hi, hA⟩
  | stuck i e hi hbefore hW => exact (hW (h.walkable hpg _)).elim

/-- `user_mem_assert` returns if the range passes, and destroys the environment otherwise. -/
theorem userMemAssert_ok (h : Wf avail held own s) {e : Fin NENV} {pg : Nat}
    (hpg : s.pgdir e = some pg) (va len perm : Word) :
  ((∀ i < len.toNat, s.Passes pg (perm ||| PTE_U ||| PTE_P) (va + BitVec.ofNat 32 i))
    ∧ userMemAssert e va len perm s = .ok ((), s)) ∨
  ((∃ i < len.toNat, ¬ s.Passes pg (perm ||| PTE_U ||| PTE_P) (va + BitVec.ofNat 32 i))
    ∧ ∃ a, userMemAssert e va len perm s = envDestroy e { s with userMemCheckAddr := a })
  := by
  obtain ⟨-, henvpg⟩ := Kernel.pgdir_eq_some hpg
  have hdir : (Prog.orElse (s.envs e).envPgdir (fault 0) : Prog Kernel Nat) s = .ok (pg, s) := by
    rw [henvpg]
    rfl
  obtain ⟨heq, hall⟩ | ⟨a, heq, hno⟩ := userMemCheck_ok h hpg va len (perm ||| PTE_U ||| PTE_P)
  · left
    refine ⟨hall, ?_⟩
    rw [userMemAssert, get_bind, bind_of_eq hdir, bind_of_eq heq, if_neg (by decide)]
    rfl
  · right
    refine ⟨hno, a, ?_⟩
    rw [userMemAssert, get_bind, bind_of_eq hdir, bind_of_eq heq, if_pos (by decide)]

end Jos
