import Jos.Kern.Accounting
import Jos.Kern.Traps
import Jos.Lib.RoundRobin

/-!
# Taking turns

`sched_yield` looks for the next environment in circular order, starting after the current
one.  While there is a current environment this is the one that ran last, so that an
environment that stays runnable is not passed over twice by another one.  When the current
environment has been freed there is none, and the search starts at the first slot.

The runs of this module interleave calls of `sched_yield` with system calls, with exits and
creations of environments, and with returns to the current environment.
-/

namespace Jos

open Bytes Prog RoundRobin

variable {avail : Finset Nat} {s s' s'' : Kernel} {cur : Nat}

/-! ### What the search finds -/

/-- `sched_yield` may choose the environment `e`: it is runnable, and not idle. -/
def Kernel.Ready (s : Kernel) (e : Nat) : Prop :=
  (s.envs e).envType ≠ .ENV_TYPE_IDLE ∧ (s.envs e).envStatus = .ENV_RUNNABLE

instance (s : Kernel) : DecidablePred s.Ready :=
  fun _ => inferInstanceAs (Decidable (_ ∧ _))

theorem curEnvx_lt (s : Kernel) :
  curEnvx s < NENV
  := by
  unfold curEnvx
  split
  · apply ENVX_lt
  · decide

/-- `sched_yield` runs the first environment that is ready after the current one. -/
theorem schedYield_next {α : Type} {e : Nat} (h : IsNext NENV s.Ready (curEnvx s) e) :
  (schedYield : Prog Kernel α) s = (envRun e : Prog Kernel α) s
  := by
  rw [schedYield, Prog.get_bind]
  simp only
  cases hfind : (List.range NENV).find? (fun i => decide
      ((s.envs (((curEnvx s + 1) % NENV + i) % NENV)).envType ≠ .ENV_TYPE_IDLE
        ∧ (s.envs (((curEnvx s + 1) % NENV + i) % NENV)).envStatus = .ENV_RUNNABLE)) with
  | none =>
      have hno := @not_ready_of_find? _ _ s.Ready _ (curEnvx_lt s) hfind
      apply (hno e h.lt h.isReady).elim
  | some i =>
      have hnext := @isNext_of_find? _ _ s.Ready _ _ (curEnvx_lt s) hfind
      rw [h.unique (curEnvx_lt s) hnext]

/-! ### Runs -/

/-- The kernel, and the environment that ran last. -/
structure Rota where
  kernel : Kernel
  last : Option Nat

/-- What happens in a step: `sched_yield` chooses an environment, or none, a system call is made,
or something else is done. -/
inductive Event where
  | yields (e : Option Nat)
  | calls (syscallno a3 a4 : Word)
  | goes
  deriving DecidableEq

namespace Rota

variable {r r' r'' : Rota} {ev : Event} {evs : List Event}

/-- The steps of a run. -/
inductive Step (r : Rota) : Event → Rota → Prop
  /-- `sched_yield` is called. -/
  | yield {s' : Kernel} (h : (schedYield : Prog Kernel Unit) r.kernel = .error (.leave s')) :
    Step r (.yields s'.curenv) { kernel := s', last := s'.curenv.or r.last }
  /-- The kernel returns to the current environment. -/
  | resume {cur : Nat} {s' : Kernel} (hcur : r.kernel.curenv = some cur)
    (h : (envRun cur : Prog Kernel Unit) r.kernel = .error (.leave s')) :
    Step r .goes { kernel := s', last := some cur }
  /-- The current environment makes a system call that returns. -/
  | call {cur : Nat} {syscallno a1 a2 a3 a4 a5 v : Word} {s' : Kernel}
    (hcur : r.kernel.curenv = some cur)
    (h : syscall syscallno a1 a2 a3 a4 a5 r.kernel = .ok (v, s')) :
    Step r (.calls syscallno a3 a4) { r with kernel := s' }
  /-- The current environment is freed: it exits, is destroyed for something it did, or was
  destroyed by another one before. -/
  | exit {cur : Nat} {s' : Kernel} (hcur : r.kernel.curenv = some cur)
    (h : envFree cur r.kernel = .ok ((), s')) :
    Step r .goes { r with kernel := { s' with curenv := none } }
  /-- The kernel creates an environment on its own account. -/
  | alloc {type : EnvType} {parentId : Word} {v : Except Word Nat} {s' : Kernel}
    (h : envAllocType type parentId r.kernel = .ok (v, s')) :
    Step r .goes { r with kernel := s' }
  /-- A trap changes registers of the current environment. -/
  | trap {cur : Nat} {s' : Kernel} (hcur : r.kernel.curenv = some cur)
    (h : Minor cur r.kernel s') :
    Step r .goes { r with kernel := s' }
  /-- Memory is written to, in user mode or by the kernel. -/
  | store {s' : Kernel} (h : MemOnly r.kernel s') : Step r .goes { r with kernel := s' }

/-- What is known of a step in which `sched_yield` was called. -/
theorem Step.yielded {c : Option Nat} (h : r.Step (.yields c) r') :
  (schedYield : Prog Kernel Unit) r.kernel = .error (.leave r'.kernel)
    ∧ r'.kernel.curenv = c ∧ r'.last = c.or r.last
  := by
  generalize hev : Event.yields c = ev at h
  cases h with
  | yield heq =>
      obtain rfl := Event.yields.inj hev
      use heq, rfl
  | resume => cases hev
  | call => cases hev
  | exit => cases hev
  | alloc => cases hev
  | trap => cases hev
  | store => cases hev

/-- A run from one state to another, with what happened in its steps, each of which was taken
in a state with the property `P`. -/
inductive Path (P : Rota → Event → Prop) (r : Rota) : List Event → Rota → Prop
  | refl : Path P r [] r
  | step {evs : List Event} {ev : Event} {r' r'' : Rota} (hpath : Path P r evs r')
    (hP : P r' ev) (hstep : r'.Step ev r'') : Path P r (evs ++ [ev]) r''

/-- A kernel that has not run an environment yet. -/
structure Fresh (avail : Finset Nat) (s : Kernel) : Prop where
  wf : Wf avail ∅ (fun _ => 0) s
  curenv : s.curenv = none
  named : ∀ e < NENV, (s.envs e).envStatus ≠ .ENV_FREE →
    ENVX (s.envs e).envId = e ∧ (s.envs e).envPgdir ≠ none

/-- A search that starts at the first slot finds what one after the environment that ran last
finds. -/
def Continues (r : Rota) : Prop :=
  r.kernel.curenv = none → ∀ k, r.last = some k → ∀ e,
    IsNext NENV r.kernel.Ready k e → IsNext NENV r.kernel.Ready 0 e

/-- Whenever `sched_yield` is called, there is a current environment, or the search that
starts at the first slot finds what it would have found after the one that ran last. Messages ask
for permissions only, and no page has more references than its counter can count. -/
def Steady (avail : Finset Nat) (r : Rota) (ev : Event) : Prop :=
  r.kernel.Fits avail (fun _ => 0) ∧
    match ev with
    | .yields _ => r.Continues
    | .calls syscallno a3 a4 => ∀ sys, Syscall.ofWord syscallno = some sys → Modest sys a3 a4
    | .goes => True

/-- The environment after the one that ran last is chosen. -/
def Chooses (r : Rota) : Prop :=
  ∀ k, r.last = some k → ∀ e, IsNext NENV r.kernel.Ready k e →
    ∃ s', (schedYield : Prog Kernel Unit) r.kernel = .error (.leave s') ∧ s'.curenv = some e

/-! ### The current environment is the one that ran last -/

/-- Identifiers tell the slots of environments, and the current environment is live and ran
last. -/
structure Inv (r : Rota) : Prop where
  named : ∀ e < NENV, (r.kernel.envs e).envStatus ≠ .ENV_FREE →
    ENVX (r.kernel.envs e).envId = e ∧ (r.kernel.envs e).envPgdir ≠ none
  cur : ∀ cur, r.kernel.curenv = some cur → r.kernel.Live cur ∧ r.last = some cur
  last : ∀ k, r.last = some k → k < NENV

theorem Inv.curEnvx (h : r.Inv) (hcur : r.kernel.curenv = some cur) :
  curEnvx r.kernel = cur
  := by
  have hlive := (h.cur cur hcur).1
  rw [Jos.curEnvx, hcur]
  apply (h.named cur hlive.1 hlive.2).1

/-- The invariant depends on the environments only. -/
theorem Inv.congr (h : r.Inv) (henvs : s'.envs = r.kernel.envs)
    (hcur : s'.curenv = r.kernel.curenv) :
  Inv { r with kernel := s' }
  := by
  constructor
  case named =>
    rw [henvs]
    apply h.named
  case cur =>
    intro cur hcur'
    rw [hcur] at hcur'
    rw [Kernel.Live, henvs]
    apply h.cur cur hcur'
  case last => apply h.last

/-- Changing an environment keeps the invariant if it stays live with a directory and its
identifier. -/
theorem Inv.setEnv (h : r.Inv) {e : Nat} {env : Env} (hst : env.envStatus ≠ .ENV_FREE)
    (henv : e < NENV → ENVX env.envId = e ∧ env.envPgdir ≠ none) :
  Inv { r with kernel := r.kernel.setEnv e env }
  := by
  constructor
  case named =>
    intro e' he' hlive
    by_cases hee : e' = e
    · subst hee
      rw [Kernel.setEnv_envs_self]
      apply henv he'
    · rw [Kernel.setEnv_envs_of_ne _ _ hee] at hlive ⊢
      apply h.named e' he' hlive
  case cur =>
    intro cur hcur
    obtain ⟨hlive, hlast⟩ := h.cur cur hcur
    refine ⟨⟨hlive.1, ?_⟩, hlast⟩
    by_cases hee : cur = e
    · rw [hee, Kernel.setEnv_envs_self]
      apply hst
    · rw [Kernel.setEnv_envs_of_ne _ _ hee]
      apply hlive.2
  case last => apply h.last

/-- Changing what an environment does, but not who it is, keeps the invariant. -/
theorem Inv.setEnv_same (h : r.Inv) {e : Nat} {env : Env} (hlive : r.kernel.Live e)
    (hst : env.envStatus ≠ .ENV_FREE) (hid : env.envId = (r.kernel.envs e).envId)
    (hpg : env.envPgdir = (r.kernel.envs e).envPgdir) :
  Inv { r with kernel := r.kernel.setEnv e env }
  := by
  apply h.setEnv hst
  intro he
  rw [hid, hpg]
  apply h.named e he hlive.2

/-- Creating an environment keeps the invariant. -/
theorem Inv.made (h : r.Inv) {e : Nat} {type : EnvType} {parentId : Word}
    (hmade : EnvMade e type parentId r.kernel s') :
  Inv { r with kernel := s' } ∧ s'.Live e
  := by
  obtain ⟨p, henvs⟩ := hmade.envs
  have hset : Inv { r with kernel := r.kernel.setEnv e (newEnv (r.kernel.envs e) e p type parentId) } := by
    apply h.setEnv
    · simp [newEnv]
    · intro he
      constructor
      · apply ENVX_nextEnvId he
      · simp [newEnv]
  constructor
  · apply hset.congr henvs hmade.curenv
  · refine ⟨hmade.lt, ?_⟩
    rw [henvs, Function.update_self]
    simp [newEnv]

/-- Freeing an environment that is not the current one keeps the invariant. -/
theorem Inv.freed (h : r.Inv) {e : Nat} (hfreed : EnvFreed e r.kernel s')
    (hne : r.kernel.curenv ≠ some e) :
  Inv { r with kernel := s' }
  := by
  have henvs : ∀ e' ≠ e, s'.envs e' = r.kernel.envs e' := by
    intro e' he'
    rw [hfreed.envs, Function.update_of_ne he']
  constructor
  case named =>
    intro e' he' hlive
    have hee : e' ≠ e := by
      rintro rfl
      rw [hfreed.envs, Function.update_self] at hlive
      apply hlive rfl
    rw [henvs e' hee] at hlive ⊢
    apply h.named e' he' hlive
  case cur =>
    intro cur hcur
    rw [hfreed.curenv] at hcur
    obtain ⟨hlive, hlast⟩ := h.cur cur hcur
    refine ⟨⟨hlive.1, ?_⟩, hlast⟩
    rw [henvs cur]
    · apply hlive.2
    · rintro rfl
      apply hne hcur
  case last => apply h.last

/-- System calls that return keep the invariant. -/
theorem Inv.called (h : r.Inv) (hcur : r.kernel.curenv = some cur) {a1 a2 a4 v : Word}
    {sys : Syscall} (hret : SysReturned cur a1 a2 a4 r.kernel sys v s') :
  Inv { r with kernel := s' }
  := by
  have hlive := (h.cur cur hcur).1
  cases hret with
  | quiet hmem => apply h.congr hmem.envs hmem.curenv
  | status hfind hst =>
      have he := findEnv_live hlive hfind
      exact h.setEnv_same he (statusOfWord_ne_free hst) rfl rfl
  | @trapframe e s1 tf hfind hmem =>
      have he := findEnv_live hlive hfind
      have h1 : Inv { r with kernel := s1 } := h.congr hmem.envs hmem.curenv
      have he1 : s1.Live e := by
        rw [Kernel.Live, hmem.envs]
        apply he
      exact h1.setEnv_same he1 he1.2 rfl rfl
  | pgfaultUpcall hfind =>
      have he := findEnv_live hlive hfind
      exact h.setEnv_same he he.2 rfl rfl
  | dying hfind =>
      have he := findEnv_live hlive hfind
      exact h.setEnv_same he (by simp) rfl rfl
  | freed hfind hne hfreed =>
      apply h.freed hfreed
      rw [hcur]
      simp [Ne.symm hne]
  | @created _ e type s1 tf hsys hmade =>
      obtain ⟨h1, he⟩ := h.made hmade
      exact h1.setEnv_same he (by simp) rfl rfl
  | @sent e s1 hfind hrecv hmem =>
      have he := findEnv_live hlive hfind
      have h1 : Inv { r with kernel := s1 } := h.congr hmem.envs hmem.curenv
      have he1 : s1.Live e := by
        rw [Kernel.Live, hmem.envs]
        apply he
      exact h1.setEnv_same he1 (by simp) rfl rfl
  | received => exact h.setEnv_same hlive (by simp) rfl rfl

/-- Switching to a live environment keeps the invariant. -/
theorem Inv.running (h : r.Inv) {e : Nat} (hlive : r.kernel.Live e) :
  Inv { kernel := r.kernel.running e, last := some e }
  := by
  constructor
  case named =>
    intro e' he' hlive'
    obtain ⟨st, cpu, runs, henv, hfree, -⟩ := r.kernel.running_envs e e'
    have hlive0 : (r.kernel.envs e').envStatus ≠ .ENV_FREE := by
      intro hno
      rw [henv] at hlive'
      by_cases hee : e' = e
      · rw [hee] at hno
        apply hlive.2 hno
      · rw [← henv, r.kernel.running_envs_of_free hno hee] at hlive'
        apply hlive' hno
    rw [henv]
    apply h.named e' he' hlive0
  case cur =>
    intro cur hcur
    obtain rfl := Option.some.inj hcur
    obtain ⟨st, cpu, runs, henv, -, hst⟩ := r.kernel.running_envs e e
    refine ⟨⟨hlive.1, ?_⟩, rfl⟩
    rw [henv]
    simp [hst]
  case last =>
    intro k hk
    obtain rfl := Option.some.inj hk
    apply hlive.1

/-- When there is no current environment the invariant says less. -/
theorem Inv.idle (h : r.Inv) :
  Inv { r with kernel := { r.kernel with curenv := none } }
  := by
  constructor
  case named => apply h.named
  case cur =>
    intro cur hcur
    cases hcur
  case last => apply h.last

/-- Every step keeps the invariant. -/
theorem Inv.step (h : r.Inv) (hstep : r.Step ev r') :
  r'.Inv
  := by
  cases hstep with
  | yield heq =>
      obtain ⟨-, ⟨e, hlive, hrun⟩ | hhalt⟩ | ⟨-, hstuck⟩ :=
        schedYield_run (s := r.kernel) (α := Unit)
      · rw [hrun, envRun_eq (h.named e hlive.1 hlive.2).2] at heq
        cases heq
        apply h.running hlive
      · rw [hhalt] at heq
        cases heq
        apply h.idle
      · rw [hstuck] at heq
        cases heq
  | resume hcur heq =>
      have hlive := (h.cur _ hcur).1
      rw [envRun_eq (h.named _ hlive.1 hlive.2).2] at heq
      cases heq
      apply h.running hlive
  | call hcur heq =>
      obtain ⟨sys, -, hret⟩ := (syscall_returned hcur _ _ _ _ _ _).of_eq heq
      apply h.called hcur hret
  | @exit cur s' hcur heq =>
      have hfreed := (envFree_freed cur).of_eq heq
      have h0 : Inv { r with kernel := { r.kernel with curenv := none } } := h.idle
      have hfreed' : EnvFreed cur { r.kernel with curenv := none } { s' with curenv := none } :=
        ⟨rfl, hfreed.envs, hfreed.envFreeList⟩
      apply h0.freed hfreed'
      simp
  | alloc heq =>
      obtain ⟨e, -, hmade⟩ | ⟨w, -, hmem⟩ := (envAllocType_made _ _).of_eq heq
      · apply (h.made hmade).1
      · apply h.congr hmem.envs hmem.curenv
  | @trap cur s' hcur hminor =>
      have hlive := (h.cur cur hcur).1
      obtain ⟨tf, hun⟩ := hminor
      have h1 : Inv { r with kernel := r.kernel.withTf cur tf } :=
        h.setEnv_same hlive hlive.2 rfl rfl
      apply h1.congr hun.memOnly.envs hun.memOnly.curenv
  | store hmem => apply h.congr hmem.envs hmem.curenv

theorem Fresh.inv (h : Fresh avail s) :
  Inv { kernel := s, last := none }
  := by
  constructor
  case named => apply h.named
  case cur =>
    intro cur hcur
    rw [h.curenv] at hcur
    cases hcur
  case last =>
    intro k hk
    cases hk

theorem Path.inv {P : Rota → Event → Prop} (hpath : Path P r evs r') (h : r.Inv) :
  r'.Inv
  := by
  induction hpath with
  | refl => apply h
  | step _ _ hstep ih => apply ih.step hstep

/-! ### Nobody is passed over twice -/

/-- The environment after the one that ran last is chosen if the search continues there. -/
theorem Inv.chooses (h : r.Inv) (hcont : r.Continues) :
  r.Chooses
  := by
  intro k hk e hnext
  have hnext' : IsNext NENV r.kernel.Ready (Jos.curEnvx r.kernel) e := by
    cases hcur : r.kernel.curenv with
    | none =>
        have h0 : Jos.curEnvx r.kernel = 0 := by rw [Jos.curEnvx, hcur]
        rw [h0]
        apply hcont hcur k hk e hnext
    | some cur =>
        have hlast := (h.cur cur hcur).2
        rw [hk] at hlast
        rw [h.curEnvx hcur, ← Option.some.inj hlast]
        apply hnext
  have hready := hnext.isReady.2
  have hpg := (h.named e hnext.lt (by rw [hready]; simp)).2
  use r.kernel.running e
  constructor
  · rw [schedYield_next hnext', envRun_eq hpg]
  · rfl

/-- Going round from the environment `a`, the environment that ran last comes before `b`. -/
def Passing (a b : Nat) (r : Rota) : Prop :=
  ∃ k, r.last = some k ∧ Before NENV a b k

/-- What `sched_yield` chooses while the environment `b` is ready: the environment `b`, or one
that comes before it, but not `a` again. -/
theorem Passing.yield {a b : Nat} (ha : a < NENV) (hb : b < NENV) (h : Passing a b r)
    (hinv : r.Inv) (hcont : r.Continues) (hready : r.kernel.Ready b)
    (hyield : (schedYield : Prog Kernel Unit) r.kernel = .error (.leave s')) :
  s'.curenv = some b ∨
    ∃ e, s'.curenv = some e ∧ Before NENV a b e ∧ e ≠ a
  := by
  obtain ⟨k, hk, hbefore⟩ := h
  obtain ⟨e, hnext⟩ := exists_isNext (hinv.last k hk) hb hready
  obtain ⟨s1, heq, hcur⟩ := hinv.chooses hcont k hk e hnext
  rw [heq] at hyield
  cases hyield
  obtain rfl | ⟨hbefore', hne⟩ := hbefore.next ha hb hready hnext
  · left
    apply hcur
  · right
    use e

/-- While the environment `b` is ready the environment that ran last comes before it, until
`b` is chosen. -/
theorem Passing.path {a b : Nat} (ha : a < NENV) (hb : b < NENV) (hinv : r.Inv)
    (h : Passing a b r)
    (hpath : Path (fun r ev => Steady avail r ev ∧ r.kernel.Ready b) r evs r') :
  Event.yields (some b) ∈ evs ∨ Passing a b r'
  := by
  induction hpath with
  | refl =>
      right
      apply h
  | @step evs ev r1 r2 hpath hP hstep ih =>
      obtain hmem | hpass := ih
      · left
        rw [List.mem_append]
        left
        apply hmem
      obtain ⟨hsteady, hready⟩ := hP
      have hinv1 := hpath.inv hinv
      cases hstep with
      | yield heq =>
          obtain hcur | ⟨e, hcur, hbefore, -⟩ :=
            hpass.yield ha hb hinv1 hsteady.2 hready heq
          · left
            rw [hcur]
            simp
          · right
            use e
            rw [hcur]
            use rfl
      | resume hcur heq =>
          right
          obtain ⟨k, hk, hbefore⟩ := hpass
          have hlast := (hinv1.cur _ hcur).2
          rw [hk] at hlast
          use k, hlast.symm
      | call hcur heq =>
          right
          apply hpass
      | exit hcur heq =>
          right
          apply hpass
      | alloc heq =>
          right
          apply hpass
      | trap hcur hminor =>
          right
          apply hpass
      | store hmem =>
          right
          apply hpass

/-- Between two choices of the environment `a` an environment that is ready all the time is
chosen. -/
def NotOvertaken (P : Rota → Event → Prop) (r : Rota) : Prop :=
  ∀ a b r1 evs r2 r3, b ≠ a → b < NENV → r.Step (.yields (some a)) r1 →
    Path (fun r ev => P r ev ∧ r.kernel.Ready b) r1 evs r2 →
    P r2 (.yields (some a)) → r2.kernel.Ready b → r2.Step (.yields (some a)) r3 →
    Event.yields (some b) ∈ evs

theorem Path.mono {P Q : Rota → Event → Prop} (h : Path P r evs r')
    (hPQ : ∀ r ev, P r ev → Q r ev) :
  Path Q r evs r'
  := by
  induction h with
  | refl => apply Path.refl
  | step _ hP hstep ih => apply ih.step (hPQ _ _ hP) hstep

theorem Path.single {P : Rota → Event → Prop} (hP : P r ev) (hstep : r.Step ev r') :
  Path P r [ev] r'
  := Path.refl.step hP hstep

/-- After boot with `n` free pages `k` environments were created, and none has run. -/
structure Filled (n k : Nat) (r : Rota) : Prop where
  last : r.last = none
  curenv : r.kernel.curenv = none
  dirs : DirInv r.kernel
  free : ∃ l, MemInv (bootAvail n) ∅ (fun _ => 0) l r.kernel
    ∧ EnvInv (List.range' k (NENV - k)) r.kernel ∧ l.length + k = n
  ready : ∀ e < k, r.kernel.Ready e
  mappings : ∀ p, r.kernel.mappings p = 0

theorem Filled.wf {n k : Nat} (h : Filled n k r) :
  Wf (bootAvail n) ∅ (fun _ => 0) r.kernel
  := by
  obtain ⟨l, hl, hfl, -⟩ := h.free
  constructor
  case mem => use l
  case env => use List.range' k (NENV - k)
  case dirs => apply h.dirs

theorem Filled.fits {n k : Nat} (h : Filled n k r) :
  r.kernel.Fits (bootAvail n) (fun _ => 0)
  := Ledger.fits_of_mappings h.wf h.mappings

/-- One more environment can be created while there is room. -/
theorem Filled.next {n k : Nat} (h : Filled n k r) (hk : k < NENV) (hn : k < n) :
  ∃ r', r.Step .goes r' ∧ Filled n (k + 1) r'
  := by
  obtain ⟨l, hl, hfl, hlen⟩ := h.free
  have hrange : List.range' k (NENV - k) = k :: List.range' (k + 1) (NENV - (k + 1)) := by
    rw [show NENV - k = NENV - (k + 1) + 1 by omega, List.range'_succ]
  have hhead : r.kernel.envFreeList = some k := by
    rw [hrange] at hfl
    apply hfl.chain.1
  obtain ⟨hnil, -⟩ | ⟨e, p, l', fl', s', hfl', hl', heq, hc, hmem, henv⟩ :=
    envAllocType_ok hl hfl (by rw [hhead]; simp; omega) .ENV_TYPE_USER 0
  · rw [hnil, List.length_nil] at hlen
    omega
  rw [hrange, List.cons.injEq] at hfl'
  obtain ⟨hke, rfl⟩ := hfl'
  use { r with kernel := s' }, .alloc heq
  have hcur : s'.curenv = r.kernel.curenv := by rw [hc.quiet]
  constructor
  case last => apply h.last
  case curenv => rw [hcur, h.curenv]
  case dirs => apply h.dirs.created hc hmem
  case free =>
    use l', hmem, henv
    rw [hl', List.length_cons] at hlen
    omega
  case ready =>
    intro e' he'
    rw [Kernel.Ready, hc.envs]
    by_cases hee : e' = e
    · rw [hee, Function.update_self]
      simp [newEnv]
    · rw [Function.update_of_ne hee]
      apply h.ready e' (by omega)
  case mappings =>
    intro q
    rw [← h.mappings q, Kernel.mappings, Kernel.mappings]
    apply refCount.congr
    intro x hx
    rw [hc.slotRef, Function.update_of_ne]
    rintro rfl
    apply (Finset.mem_filter.mp hx).2

/-- Environments can be created from boot on, one after the other. -/
theorem filled {n : Nat} (hn : 71 + n ≤ 2 ^ 20) {k : Nat} (hk : k ≤ NENV) (hkn : k ≤ n) :
  ∃ s evs r, Fresh (bootAvail n) s ∧ Path (Steady (bootAvail n)) { kernel := s, last := none } evs r
    ∧ Filled n k r
  := by
  induction k with
  | zero =>
      obtain ⟨s, heq, ⟨envs, hs⟩, hfree⟩ := envInit_ok (bootKernel n)
      obtain ⟨hwf, hcur⟩ := (bootKernel_afterMemInit hn).wf heq
      use s, [], { kernel := s, last := none }
      constructor
      · constructor
        case wf => apply hwf
        case curenv => apply hcur
        case named =>
          intro e he hlive
          apply (hlive (hfree e he).1).elim
      · use .refl
        constructor
        case last => rfl
        case curenv => apply hcur
        case dirs => apply hwf.dirs
        case free =>
          obtain ⟨l, hl⟩ := hwf.mem
          have hfl : EnvInv (List.range NENV) s := by
            apply envInv_of_init hfree
            rw [hs]
          rw [List.range_eq_range'] at hfl
          use l, hl, hfl
          have hchain := bootKernel_chain n
          have hlist : s.pageFreeList = (bootKernel n).pageFreeList := by rw [hs]
          have hpages : s.pages = (bootKernel n).pages := by rw [hs]
          rw [← hlist, ← hpages] at hchain
          rw [hl.chain.unique hchain, List.length_range', Nat.add_zero]
        case ready =>
          intro e he
          apply (Nat.not_lt_zero e he).elim
        case mappings => apply Ledger.mappings_of_init heq
  | succ k ih =>
      obtain ⟨s, evs, r, hfresh, hpath, hfilled⟩ := ih (by omega) (by omega)
      obtain ⟨r', hstep, hfilled'⟩ := hfilled.next (by omega) (by omega)
      use s, evs ++ [.goes], r', hfresh, hpath.step ⟨hfilled.fits, trivial⟩ hstep

/-- The environment in the slot after the one looked at first is chosen if it is ready. -/
theorem isNext_succ {k : Nat} (hk : k + 1 < NENV) (hready : s.Ready (k + 1)) :
  IsNext NENV s.Ready k (k + 1)
  := by
  constructor
  case lt => apply hk
  case isReady => apply hready
  case first =>
    intro e _ _
    unfold ahead
    split
    · omega
    · omega

/-- Switching to another environment from one that is ready or from none does not keep the
others from being ready. -/
theorem Ready.running {e e' : Nat} (h : s.Ready e') (hne : e' ≠ e) :
  (s.running e).Ready e'
  := by
  have hpre : s.preempted.envs e' = s.envs e' := by
    obtain hp | ⟨hrun, -⟩ := s.preempted_envs e'
    · apply hp
    · rw [h.2] at hrun
      cases hrun
  rw [Kernel.Ready, Kernel.running]
  simp only [Kernel.setEnv, Function.update_of_ne hne, hpre]
  apply h

theorem Ready.live {e : Nat} (h : s.Ready e) (he : e < NENV) :
  s.Live e
  := by
  use he
  rw [h.2]
  simp

/-- Mappings stay as they are when a live environment is switched to. -/
theorem mappings_running {e : Nat} (hlive : s.Live e) (p : Nat) :
  (s.running e).mappings p = s.mappings p
  := by
  rw [Kernel.mappings, Kernel.mappings]
  apply refCount.congr
  intro x hx
  cases x with
  | page e' d t =>
      have hpte := congrFun (Kernel.running_ptes hlive) (e', d, t)
      simp only [Kernel.ptes] at hpte
      rw [Kernel.slotRef, Kernel.slotRef, hpte]
  | dir e' => apply ((Finset.mem_filter.mp hx).2).elim
  | table e' d => apply ((Finset.mem_filter.mp hx).2).elim
  | kern d => apply ((Finset.mem_filter.mp hx).2).elim

/-- The environment that is switched from is ready again. -/
theorem Ready.preempted {e e' : Nat} (hcur : s.curenv = some e')
    (hst : (s.envs e').envStatus = .ENV_RUNNING) (htype : (s.envs e').envType ≠ .ENV_TYPE_IDLE)
    (hne : e' ≠ e) :
  (s.running e).Ready e'
  := by
  rw [Kernel.Ready, Kernel.running]
  simp only [Kernel.setEnv, Function.update_of_ne hne, Kernel.preempted, hcur, hst, if_true,
    Function.update_self]
  use htype

/-- The environment in the slot after the one the search starts from is chosen if it is
ready. -/
theorem Inv.chooseNext (h : r.Inv) {k : Nat} (hk : Jos.curEnvx r.kernel = k)
    (hlt : k + 1 < NENV) (hready : r.kernel.Ready (k + 1)) :
  r.Step (.yields (some (k + 1)))
    { kernel := r.kernel.running (k + 1), last := some (k + 1) }
  := by
  have hnext : IsNext NENV r.kernel.Ready (Jos.curEnvx r.kernel) (k + 1) := by
    rw [hk]
    apply isNext_succ hlt hready
  have hpg := (h.named (k + 1) hlt (by rw [hready.2]; simp)).2
  have heq : (schedYield : Prog Kernel Unit) r.kernel
      = .error (.leave (r.kernel.running (k + 1))) := by
    rw [schedYield_next hnext, envRun_eq hpg]
  apply Step.yield heq

/-- Without a current environment the one in slot `1` is chosen if it is ready. -/
theorem Inv.chooseFirst (h : r.Inv) (hcur : r.kernel.curenv = none) (hready : r.kernel.Ready 1) :
  r.Step (.yields (some 1)) { kernel := r.kernel.running 1, last := some 1 }
  := by
  apply h.chooseNext (k := 0)
  · rw [Jos.curEnvx, hcur]
  · decide
  · apply hready

/-- The environment in the slot after the current one is chosen if it is ready. -/
theorem Inv.chooseSecond (h : r.Inv) (hcur : r.kernel.curenv = some 1)
    (hready : r.kernel.Ready 2) :
  r.Step (.yields (some 2)) { kernel := r.kernel.running 2, last := some 2 }
  := by
  apply h.chooseNext (k := 1)
  · apply h.curEnvx hcur
  · decide
  · apply hready

end Rota

end Jos
