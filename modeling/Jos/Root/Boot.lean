import Jos.Kern.Accounting
import Jos.Root.Wf

/-!
# The kernel in `kern/` after boot

What `mem_init` leaves behind is described as for the other kernel, and `env_init` links all
environments, with a proper end.  Such a kernel is well formed, and environments can be created.
-/

namespace Jos

namespace Root

open Bytes Prog

variable {avail held : Finset Nat} {l fl : List Nat} {s s' : Kernel}

/-! ### Linking the environments -/

/-- The environments are linked in order, and the last one to nothing. -/
structure EnvsLinked (n : Nat) (s s' : Kernel) : Prop where
  quiet : ∃ envs, s' = { s with envs := envs }
  free : ∀ e < n, (s'.envs e).envStatus = .ENV_FREE ∧ (s'.envs e).envLink = some (e + 1)
    ∧ (s'.envs e).envId = 0

theorem envInit_ok (s : Kernel) :
  ∃ s', envInit s = .ok ((), s') ∧ (∃ envs, s' = { s with envs := envs, envFreeList := some 0 })
    ∧ ∀ e < NENV, (s'.envs e).envStatus = .ENV_FREE ∧ (s'.envs e).envId = 0
      ∧ (s'.envs e).envLink = if e + 1 < NENV then some (e + 1) else none
  := by
  have hloop : (forUp 0 NENV (fun i => modify (fun s : Kernel =>
      s.setEnv i (initEnv i (s.envs i))))).Ends s (fun _ s' => EnvsLinked NENV s s')
      (fun _ => False) := by
    apply ends_forUp_zero (fun n s' => EnvsLinked n s s')
    · rintro i s' hi ⟨⟨envs, hs'⟩, hfree⟩
      rw [ends_modify]
      constructor
      · use Function.update envs i (initEnv i (envs i))
        rw [hs']
        rfl
      · intro e he
        simp only [Kernel.setEnv]
        by_cases hei : e = i
        · rw [hei, Function.update_self, initEnv]
          exact ⟨rfl, rfl, rfl⟩
        · rw [Function.update_of_ne hei]
          exact hfree e (by omega)
    · exact ⟨⟨s.envs, rfl⟩, fun e he => by omega⟩
  obtain ⟨_, s1, heq, ⟨envs, hs1⟩, hfree⟩ := hloop.returns
  use { s1.setEnv (NENV - 1) { s1.envs (NENV - 1) with envLink := none } with
    envFreeList := some 0 }
  constructor
  · rw [envInit, bind_of_eq heq]
    rfl
  constructor
  · use Function.update s1.envs (NENV - 1) { s1.envs (NENV - 1) with envLink := none }
    rw [hs1]
    rfl
  · intro e he
    obtain ⟨hst, hlink, hid⟩ := hfree e he
    simp only [Kernel.setEnv]
    by_cases hlast : e = NENV - 1
    · rw [hlast] at hst hid ⊢
      rw [Function.update_self, if_neg (by decide)]
      exact ⟨hst, hid, rfl⟩
    · rw [Function.update_of_ne hlast, if_pos (by omega)]
      exact ⟨hst, hid, hlink⟩

/-- The links of consecutive numbers, the last of which is linked to nothing. -/
theorem chain_range {next : Nat → Option Nat} {n k : Nat}
    (h : ∀ e, k ≤ e → e < k + n → next e = if e + 1 < k + n then some (e + 1) else none) :
  Chain next (if n = 0 then none else some k) (List.range' k n)
  := by
  induction n generalizing k with
  | zero => rfl
  | succ n ih =>
      rw [List.range'_succ, if_neg (by omega)]
      constructor
      · rfl
      · have hk := h k (Nat.le_refl k) (by omega)
        have hhead : next k = if n = 0 then none else some (k + 1) := by
          rw [hk]
          by_cases hn : n = 0
          · rw [if_pos hn, if_neg (by omega)]
          · rw [if_neg hn, if_pos (by omega)]
        rw [hhead]
        apply ih
        intro e he he'
        rw [h e (by omega) (by omega), show k + (n + 1) = k + 1 + n by omega]

/-- The environments are in order after `env_init`. -/
theorem envInv_of_init
    (h : ∀ e < NENV, (s.envs e).envStatus = .ENV_FREE ∧ (s.envs e).envId = 0
      ∧ (s.envs e).envLink = if e + 1 < NENV then some (e + 1) else none)
    (hlist : s.envFreeList = some 0) :
  EnvInv (List.range NENV) s
  := by
  constructor
  case chain =>
    have hchain : Chain (fun e => (s.envs e).envLink) (if NENV = 0 then none else some 0)
        (List.range' 0 NENV) := by
      apply chain_range
      intro e _ he
      rw [Nat.zero_add] at he ⊢
      exact (h e he).2.2
    rw [hlist, List.range_eq_range']
    exact hchain
  case nodup => exact List.nodup_range
  case mem_free =>
    intro e
    rw [List.mem_range]
    constructor
    · exact fun he => ⟨he, (h e he).1⟩
    · exact fun he => he.1
  case pgdir =>
    intro e he
    exact (he.2 (h e he.1).1).elim

/-! ### The kernel is well formed -/

/-- Nothing is mapped while no environment is live. -/
theorem ptes_of_free (hfree : ∀ e < NENV, (s.envs e).envStatus = .ENV_FREE) (e : Fin NENV) (d : Nat) :
  s.pde e d = 0
  := by
  rw [Kernel.pde, Kernel.pgdir, if_pos (hfree e e.isLt)]

/-- The kernel is well formed after `env_init`. -/
theorem wf_of_init (h : AfterMemInit avail s) (heq : envInit s = .ok ((), s')) :
  Wf avail ∅ s' ∧ Fits avail s' ∧ s'.curenv = none
  := by
  obtain ⟨s1, heq1, ⟨envs, hs1⟩, hfree⟩ := envInit_ok s
  obtain rfl := (ok_inj heq1 heq).2
  obtain ⟨s2, heq2, ⟨envs', hs2⟩, hfree2⟩ := Jos.envInit_ok s
  obtain ⟨hwf2, -⟩ := h.wf heq2
  obtain ⟨l, hl⟩ := hwf2.mem
  have hslot : s1.slotRef = s2.slotRef := by
    funext x
    cases x with
    | kern d =>
        rw [hs1, hs2]
        rfl
    | dir e =>
        rw [slotRef_of_free (fun e he => (hfree e he).1) (by simp),
          slotRef_of_free (fun e he => (hfree2 e he).1) (by simp)]
    | table e d =>
        rw [slotRef_of_free (fun e he => (hfree e he).1) (by simp),
          slotRef_of_free (fun e he => (hfree2 e he).1) (by simp)]
    | page e d t =>
        rw [slotRef_of_free (fun e he => (hfree e he).1) (by simp),
          slotRef_of_free (fun e he => (hfree2 e he).1) (by simp)]
  have hpages : s1.pages = s2.pages := by rw [hs1, hs2]
  have hmem : MemInv avail ∅ (fun _ => 0) l s1 := by
    apply hl.of_store hpages
    · rw [hs1, hs2]
    · rw [hs1, hs2]
    · rw [hs1, hs2]
    · rw [Kernel.store, hslot, hpages]
      exact hl.balanced
  have hpde := ptes_of_free (s := s1) (fun e he => (hfree e he).1)
  refine ⟨⟨⟨l, hmem⟩, ⟨_, envInv_of_init hfree (by rw [hs1])⟩, ?_, ?_⟩, ?_, ?_⟩
  · constructor
    case kern =>
      intro d hd hd' p hp
      have hk := hwf2.dirs.kern d hd hd' p
      rw [hs2] at hk
      rw [hs1] at hp ⊢
      exact hk hp
    case upper =>
      intro e pg he
      rw [Kernel.pgdir, if_pos (hfree e e.isLt).1] at he
      cases he
  · constructor
    case table =>
      intro e d
      rw [hpde]
      exact tableFlags_zero
    case page =>
      intro a
      rw [Kernel.ptes, Kernel.pte, hpde, refOf_zero]
      exact pageFlags_zero
  · intro p hp
    have hfits := Ledger.fits_of_mappings hwf2 (Ledger.mappings_of_init heq2) p hp
    rw [Kernel.refs] at hfits ⊢
    rw [hslot]
    exact hfits
  · rw [hs1]
    exact h.curenv

end Root

end Jos
