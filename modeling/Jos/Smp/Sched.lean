import Jos.Smp.Invariant

/-!
# Running, scheduling and destroying environments

The kernel is left with every processor running an environment of its own.  An environment
is freed only while no other processor runs it, unless it was marked as dying before.
-/

namespace Jos.Smp

open Bytes Prog

variable {s s' s'' : State}

/-! ### Leaving the kernel -/

/-- The environments that are free or marked stay so. -/
def Kept (s s' : State) : Prop :=
  ∀ e, s.status e = .ENV_FREE ∨ s.status e = .ENV_DYING → s'.status e = s.status e

theorem Kept.refl (s : State) :
  Kept s s
  := fun _ _ => rfl

theorem Kept.trans (h : Kept s s') (h' : Kept s' s'') :
  Kept s s''
  := by
  intro e he
  have hst := h e he
  rw [← hst] at he
  exact (h' e he).trans hst

theorem Kept.marked (h : Kept s s') :
  Marked s s'
  := fun e he => (h e (Or.inr he)).trans he

theorem Alike.kept (h : Alike s s') :
  Kept s s'
  := fun e _ => h.status e

/-- What is known of the state once the environment `e` was made the current one. -/
structure Switched (e : Nat) (s s' : State) : Prop where
  self : s'.cpus s.cpunum = { s.cpus s.cpunum with cpuEnv := some e }
  cpus : ∀ c, c ≠ s.cpunum → s'.cpus c = s.cpus c
  running : s'.status e = .ENV_RUNNING
  others : ∀ x, x ≠ e → s'.status x = s.status x
    ∨ (s.curenv = some x ∧ s'.status x = .ENV_RUNNABLE)
  ids : ∀ x, (s'.envs x).envId = (s.envs x).envId
  links : ∀ x, (s'.envs x).envLink = (s.envs x).envLink
  free : s'.envFreeList = s.envFreeList
  freed : s'.freed = s.freed
  kernelLock : s'.kernelLock = s.kernelLock

theorem Switched.runs_self {e : Nat} (h : Switched e s s') :
  s'.runs s.cpunum = some e
  := by
  rw [State.runs, h.self]

theorem Switched.runs {e c : Nat} (h : Switched e s s') (hc : c ≠ s.cpunum) :
  s'.runs c = s.runs c
  := by
  rw [State.runs, h.cpus c hc]
  rfl

/-- The invariant holds when the kernel is left to run an environment that no other
processor runs. -/
theorem Switched.exclusive {e : Nat} (h : Switched e s s') (hs : Entered s) (he : e < NENV)
    (hfree : s.status e ≠ .ENV_FREE) (hdying : s.status e ≠ .ENV_DYING)
    (hother : ∀ c, c ≠ s.cpunum → s.runs c ≠ some e) :
  Exclusive s' ∧ Kept s s'
  := by
  have hkeep : ∀ x, s.curenv ≠ some x → x ≠ e → s'.status x = s.status x := by
    intro x hx hxe
    obtain hx' | ⟨hx', -⟩ := h.others x hxe
    · exact hx'
    · exact (hx hx').elim
  have hcurfree : ∀ x, s.curenv = some x → s.status x ≠ .ENV_FREE ∧ s.status x ≠ .ENV_DYING :=
    fun x hx => (hs.current hx).2
  constructor
  · constructor
    · intro c c' x hc hc'
      by_cases hcn : c = s.cpunum
      · by_cases hcn' : c' = s.cpunum
        · rw [hcn, hcn']
        · rw [hcn, h.runs_self] at hc
          rw [h.runs hcn', ← hc] at hc'
          exact (hother c' hcn' hc').elim
      · by_cases hcn' : c' = s.cpunum
        · rw [hcn', h.runs_self] at hc'
          rw [h.runs hcn, ← hc'] at hc
          exact (hother c hcn hc).elim
        · rw [h.runs hcn] at hc
          rw [h.runs hcn'] at hc'
          exact hs.one hc hc'
    · intro c x hc
      by_cases hcn : c = s.cpunum
      · rw [hcn, h.runs_self] at hc
        obtain rfl := Option.some.inj hc
        exact ⟨he, Or.inl h.running⟩
      · rw [h.runs hcn] at hc
        obtain ⟨hx, hbusy⟩ := hs.others hcn hc
        have hxe : x ≠ e := by
          rintro rfl
          exact hother c hcn hc
        have hxcur : s.curenv ≠ some x := by
          intro hcur
          exact hcn (hs.one hc hcur)
        rw [State.Busy, hkeep x hxcur hxe]
        exact ⟨hx, hbusy⟩
    · intro c hc
      by_cases hcn : c = s.cpunum
      · rw [hcn, h.self] at hc
        exact (hs.awake hc).elim
      · rw [h.cpus c hcn] at hc
        rw [h.runs hcn]
        exact hs.halted hcn hc
    · apply hs.envs.congr h.ids h.links h.free
      intro x
      by_cases hxe : x = e
      · rw [hxe, h.running]
        simp only [reduceCtorEq, false_iff]
        exact hfree
      · obtain hx | ⟨hcur, hx⟩ := h.others x hxe
        · rw [hx]
        · rw [hx]
          simp only [reduceCtorEq, false_iff]
          exact (hcurfree x hcur).1
    · unfold FreedOk
      rw [h.freed]
      exact hs.freed
  · intro x hx
    have hxe : x ≠ e := by
      rintro rfl
      exact hx.elim hfree hdying
    have hxcur : s.curenv ≠ some x :=
      fun hcur => hx.elim (hcurfree x hcur).1 (hcurfree x hcur).2
    exact hkeep x hxcur hxe

/-- The invariant holds when the kernel is left without an environment to run. -/
theorem Entered.halt (hs : Entered s) (info : CpuInfo) (hinfo : info.cpuEnv = none) :
  Exclusive (s.setCpu info) ∧ Kept s (s.setCpu info)
  := by
  have hself : (s.setCpu info).runs s.cpunum = none := by
    simp only [State.runs, State.setCpu, Function.update_self, hinfo]
  have hother : ∀ c, c ≠ s.cpunum → (s.setCpu info).runs c = s.runs c := by
    intro c hc
    simp only [State.runs, State.setCpu, Function.update_of_ne hc]
  have hne : ∀ {c e}, (s.setCpu info).runs c = some e → c ≠ s.cpunum := by
    rintro c e hc rfl
    rw [hself] at hc
    cases hc
  refine ⟨⟨?_, ?_, ?_, ?_, hs.freed⟩, .refl s⟩
  · intro c c' e hc hc'
    have hcs := hother c (hne hc) ▸ hc
    have hcs' := hother c' (hne hc') ▸ hc'
    exact hs.one hcs hcs'
  · intro c e hc
    have hcs := hother c (hne hc) ▸ hc
    exact hs.others (hne hc) hcs
  · intro c hc
    by_cases hcn : c = s.cpunum
    · rw [hcn]
      exact hself
    · rw [hother c hcn]
      simp only [State.setCpu, Function.update_of_ne hcn] at hc
      exact hs.halted hcn hc
  · exact hs.envs.congr (fun _ => rfl) (fun _ => rfl) rfl (fun _ => Iff.rfl)

/-- Programs that leave the kernel with the invariant. -/
def Leaves {α : Type} (m : Prog State α) (s : State) : Prop :=
  m.MayEnd s (fun _ _ => False) (fun s' => Exclusive s' ∧ Kept s s')

theorem Leaves.safe {α : Type} {m : Prog State α} (h : Leaves m s) :
  Safe m s
  := MayEnd.mono h (fun _ _ h' => h'.elim) (fun _ h' => ⟨h'.1, h'.2.marked⟩)

/-- What `preempt` changes. -/
structure Preempted (s s' : State) : Prop where
  cpus : s'.cpus = s.cpus
  cpunum : s'.cpunum = s.cpunum
  status : ∀ x, s'.status x = s.status x ∨ (s.curenv = some x ∧ s'.status x = .ENV_RUNNABLE)
  ids : ∀ x, (s'.envs x).envId = (s.envs x).envId
  links : ∀ x, (s'.envs x).envLink = (s.envs x).envLink
  free : s'.envFreeList = s.envFreeList
  freed : s'.freed = s.freed
  kernelLock : s'.kernelLock = s.kernelLock

theorem preempt_ok (s : State) :
  preempt.MayEnd s (fun _ s' => Preempted s s') (fun _ => False)
  := by
  have hsame : Preempted s s :=
    ⟨rfl, rfl, fun _ => Or.inl rfl, fun _ => rfl, fun _ => rfl, rfl, rfl, rfl⟩
  rw [preempt, mayEnd_bind, mayEnd_get]
  cases hcur : s.curenv with
  | none => exact mayEnd_pure () |>.mpr hsame
  | some cur =>
      simp only
      rw [mayEnd_ite, mayEnd_modify, mayEnd_pure]
      refine ⟨?_, fun _ => hsame⟩
      intro _
      refine ⟨rfl, rfl, ?_, ?_, ?_, rfl, rfl, rfl⟩
      · intro x
        by_cases hx : x = cur
        · right
          rw [hx, State.status_setEnv_self]
          exact ⟨hcur, rfl⟩
        · left
          exact State.status_setEnv_of_ne _ _ hx
      · intro x
        by_cases hx : x = cur
        · rw [hx, State.envs_setEnv_self]
        · rw [State.envs_setEnv_of_ne _ _ hx]
      · intro x
        by_cases hx : x = cur
        · rw [hx, State.envs_setEnv_self]
        · rw [State.envs_setEnv_of_ne _ _ hx]

/-- After the switch the environment is running. -/
theorem Preempted.switched (h : Preempted s s') (e : Nat) :
  Switched e s ((s'.setCurenv (some e)).setEnv e { s'.envs e with
    envStatus := .ENV_RUNNING, envRuns := (s'.envs e).envRuns + 1 })
  := by
  constructor
  · change (s'.setCurenv (some e)).cpus s.cpunum = _
    rw [← h.cpunum, ← h.cpus]
    simp only [State.setCurenv, State.setCpu, Function.update_self]
  · intro c hc
    change (s'.setCurenv (some e)).cpus c = s.cpus c
    rw [← h.cpunum] at hc
    rw [← h.cpus]
    simp only [State.setCurenv, State.setCpu, Function.update_of_ne hc]
  · exact State.status_setEnv_self _ _ _
  · intro x hx
    rw [State.status_setEnv_of_ne _ _ hx]
    exact h.status x
  · intro x
    by_cases hx : x = e
    · rw [hx, State.envs_setEnv_self]
      exact h.ids e
    · rw [State.envs_setEnv_of_ne _ _ hx]
      exact h.ids x
  · intro x
    by_cases hx : x = e
    · rw [hx, State.envs_setEnv_self]
      exact h.links e
    · rw [State.envs_setEnv_of_ne _ _ hx]
      exact h.links x
  · exact h.free
  · exact h.freed
  · exact h.kernelLock

theorem switchTo_ok (s : State) (e : Nat) :
  (switchTo e).MayEnd s (fun _ s' => Switched e s s' ∧ s'.cpunum = s.cpunum) (fun _ => False)
  := by
  rw [switchTo, mayEnd_bind]
  apply (preempt_ok s).mono
  · intro _ s1 h1
    rw [mayEnd_bind, mayEnd_modify, mayEnd_bind, mayEnd_get, mayEnd_ite]
    constructor
    · exact fun _ => mayEnd_panic _
    · intro _
      rw [mayEnd_pure]
      exact ⟨h1.switched e, h1.cpunum⟩
  · exact fun _ h => h

/-- Setting the number of the processor changes nothing that matters. -/
theorem Exclusive.of_alike (hs : Exclusive s) (h : Alike s s') :
  Exclusive s'
  := by
  constructor
  · intro c c' e hc hc'
    rw [h.runs] at hc hc'
    exact hs.one hc hc'
  · intro c e hc
    rw [h.runs] at hc
    exact ⟨(hs.busy hc).1, h.busy (hs.busy hc).2⟩
  · intro c hc
    rw [h.cpus] at hc
    rw [h.runs]
    exact hs.halted hc
  · exact h.envsOk hs.envs
  · exact h.freedOk hs.freed

/-- Leaving the kernel to run the current environment. -/
theorem leave_ok {α : Type} (hs : Exclusive s') (hkept : Kept s s') :
  (do
    let cur ← curenv
    modify (fun s => s.setEnv cur { s.envs cur with envCpunum := s.cpunum })
    Prog.leave : Prog State α).MayEnd s' (fun _ _ => False)
    (fun s' => Exclusive s' ∧ Kept s s')
  := by
  rw [mayEnd_bind, curenv, mayEnd_bind, mayEnd_get, mayEnd_orElse]
  constructor
  · intro cur _
    rw [mayEnd_bind, mayEnd_modify, mayEnd_leave]
    have halike : Alike s' (s'.setEnv cur { s'.envs cur with envCpunum := s'.cpunum }) :=
      .setEnv s' cur rfl rfl rfl
    exact ⟨hs.of_alike halike, hkept.trans halike.kept⟩
  · exact fun _ => mayEnd_fault 0

/-- Running an environment that is runnable, and is not the current one. -/
theorem envRun_switch {α : Type} (hs : Entered s) {e : Nat} (he : e < NENV)
    (hrun : s.status e = .ENV_RUNNABLE) (hcur : s.curenv ≠ some e) :
  Leaves (envRun (α := α) e) s
  := by
  have hfree : s.status e ≠ .ENV_FREE := by
    rw [hrun]
    simp
  have hdying : s.status e ≠ .ENV_DYING := by
    rw [hrun]
    simp
  have hother : ∀ c, c ≠ s.cpunum → s.runs c ≠ some e := by
    intro c hc hce
    obtain ⟨-, h | h⟩ := hs.others hc hce
    · rw [hrun] at h
      cases h
    · exact hdying h
  -- the identifiers differ
  have hswitch : s.switches e = true := by
    unfold State.switches
    cases hc : s.curenv with
    | none => rfl
    | some cur =>
        simp only [ne_eq, decide_not, Bool.not_eq_true', decide_eq_false_iff_not]
        intro hid
        obtain ⟨hlt, hcfree, -⟩ := hs.current hc
        have hx := hs.envs.ids cur hlt hcfree
        rw [hid, hs.envs.ids e he hfree] at hx
        rw [hc, hx] at hcur
        exact hcur rfl
  rw [Leaves, envRun, mayEnd_bind, switchOver, mayEnd_bind, mayEnd_get, if_pos hswitch]
  apply (switchTo_ok s e).mono
  · rintro _ s' ⟨hsw, -⟩
    obtain ⟨hex, hkept⟩ := hsw.exclusive hs he hfree hdying hother
    exact leave_ok hex hkept
  · exact fun _ h => h.elim

/-- Going on with the current environment. -/
theorem envRun_current {α : Type} (hs : Entered s) {e : Nat} (hcur : s.curenv = some e)
    (hrun : s.status e = .ENV_RUNNING) :
  Leaves (envRun (α := α) e) s
  := by
  have hswitch : ¬ s.switches e = true := by
    unfold State.switches
    rw [hcur]
    simp
  rw [Leaves, envRun, mayEnd_bind, switchOver, mayEnd_bind, mayEnd_get, if_neg hswitch, mayEnd_pure]
  apply leave_ok
  · refine ⟨hs.one, ?_, ?_, hs.envs, hs.freed⟩
    · intro c x hc
      by_cases hcn : c = s.cpunum
      · rw [hcn, ← State.curenv_eq, hcur] at hc
        obtain rfl := Option.some.inj hc
        exact ⟨(hs.current hcur).1, Or.inl hrun⟩
      · exact hs.others hcn hc
    · intro c hc
      by_cases hcn : c = s.cpunum
      · rw [hcn] at hc
        exact (hs.awake hc).elim
      · exact hs.halted hcn hc
  · exact .refl s

theorem schedHalt_leaves {α : Type} (hs : Entered s) :
  Leaves (schedHalt (α := α)) s
  := by
  rw [Leaves, schedHalt, mayEnd_bind, mayEnd_get, mayEnd_ite]
  constructor
  · intro _
    rw [mayEnd_bind, mayEnd_modify, mayEnd_leave]
    exact hs.halt _ rfl
  · exact fun _ => mayEnd_panic _

/-! ### The scheduler -/

theorem State.candidate_lt (s : State) (i : Nat) :
  s.candidate i < NENV
  := Nat.mod_lt _ (by decide)

/-- Every environment is a candidate, and the current one is the last. -/
theorem State.candidate_surj (s : State) {e : Nat} (he : e < NENV) :
  ∃ i < NENV, s.candidate i = e
  := by
  use (e + NENV - (s.currentEnv + 1) % NENV) % NENV
  simp only [State.candidate, NENV] at he ⊢
  omega

theorem State.candidate_current (s : State) {i j : Nat} (hi : i < NENV) (hj : j < NENV)
    (hcur : s.candidate i = s.currentEnv) (hne : s.candidate j ≠ s.currentEnv) :
  j < i
  := by
  simp only [State.candidate, NENV] at hi hj hcur hne
  omega

theorem Entered.currentEnv (hs : Entered s) {cur : Nat} (hcur : s.curenv = some cur) :
  s.currentEnv = cur
  := by
  obtain ⟨hlt, hfree, -⟩ := hs.current hcur
  unfold State.currentEnv
  rw [hcur]
  exact hs.envs.ids cur hlt hfree

theorem schedYield_leaves {α : Type} (hs : Entered s) :
  Leaves (schedYield (α := α)) s
  := by
  rw [Leaves, schedYield, mayEnd_bind, mayEnd_get]
  split
  case h_1 i hfind =>
    rw [List.find?_range_eq_some] at hfind
    obtain ⟨hrun, hi, hfirst⟩ := hfind
    simp only [decide_eq_true_eq] at hrun
    rw [List.mem_range] at hi
    apply envRun_switch hs (s.candidate_lt i) hrun
    -- the current environment would have been found after the other one
    intro hcur
    obtain ⟨e', he', hne, hrun'⟩ := hs.ready hcur hrun
    obtain ⟨j, hj, rfl⟩ := s.candidate_surj he'
    have hcurenv := hs.currentEnv hcur
    have hlt : j < i := by
      apply s.candidate_current hi hj hcurenv.symm
      rw [hcurenv]
      exact hne
    have hno := hfirst j hlt
    simp only [Bool.not_eq_true', decide_eq_false_iff_not] at hno
    exact hno hrun'
  case h_2 =>
    split
    case h_1 cur hcur =>
      rw [mayEnd_ite]
      constructor
      · intro hrun
        exact envRun_current hs hcur hrun
      · exact fun _ => schedHalt_leaves hs
    case h_2 => exact schedHalt_leaves hs

/-! ### Freeing environments -/

/-- What is known once the environment `e` was freed. -/
structure FreedEnv (e : Nat) (s s' : State) : Prop where
  cpus : s'.cpus = s.cpus
  cpunum : s'.cpunum = s.cpunum
  status : s'.status e = .ENV_FREE
  others : ∀ x, x ≠ e → s'.envs x = s.envs x
  link : (s'.envs e).envLink = s.envFreeList
  free : s'.envFreeList = some e
  freed : s'.freed = ⟨e, s.cpunum, s.cpus⟩ :: s.freed

theorem envFree_ok (s : State) (e : Nat) :
  (envFree e).MayEnd s (fun _ s' => FreedEnv e s s') (fun _ => False)
  := by
  rw [envFree, mayEnd_bind, mayEnd_modify, mayEnd_bind, mayEnd_get, mayEnd_ite]
  constructor
  · exact fun _ => mayEnd_fault 0
  · intro _
    rw [mayEnd_modify]
    constructor
    · rfl
    · rfl
    · exact State.status_setEnv_self _ _ _
    · intro x hx
      exact State.envs_setEnv_of_ne _ _ hx
    · exact congrArg Env.envLink (State.envs_setEnv_self _ _ _)
    · rfl
    · rfl

namespace FreedEnv

variable {e : Nat}

theorem envsOk (h : FreedEnv e s s') (hs : EnvsOk s) (he : e < NENV) (hne : s.status e ≠ .ENV_FREE) :
  EnvsOk s'
  := by
  obtain ⟨hids, l, hl, hnodup, hfree⟩ := hs
  have hnotin : e ∉ l := fun hmem => hne (hfree e hmem).2
  constructor
  · intro x hx hxne
    have hxe : x ≠ e := by
      rintro rfl
      exact hxne h.status
    rw [State.status, h.others x hxe] at hxne
    rw [h.others x hxe]
    exact hids x hx hxne
  · refine ⟨e :: l, ?_, List.nodup_cons.mpr ⟨hnotin, hnodup⟩, ?_⟩
    · rw [h.free]
      refine ⟨rfl, ?_⟩
      simp only [h.link]
      apply hl.congr
      intro x hx
      rw [h.others x (fun hxe => hnotin (hxe ▸ hx))]
    · intro x hx
      rw [List.mem_cons] at hx
      obtain rfl | hx := hx
      · exact ⟨he, h.status⟩
      · have hxe : x ≠ e := fun hxe => hnotin (hxe ▸ hx)
        rw [State.status, h.others x hxe]
        exact hfree x hx

theorem freedOk (h : FreedEnv e s s') (hs : FreedOk s)
    (hother : ∀ c, c ≠ s.cpunum → s.runs c ≠ some e) :
  FreedOk s'
  := by
  intro f hf
  rw [h.freed, List.mem_cons] at hf
  obtain rfl | hf := hf
  · exact hother
  · exact hs f hf

theorem runs (h : FreedEnv e s s') (c : Nat) :
  s'.runs c = s.runs c
  := congrArg (fun f => (f c).cpuEnv) h.cpus

theorem curenv (h : FreedEnv e s s') :
  s'.curenv = s.curenv
  := by
  rw [State.curenv_eq, State.curenv_eq, h.cpunum]
  exact h.runs s.cpunum

/-- An environment that no other processor runs may be freed. -/
theorem other (h : FreedEnv e s s') (hs : Others s) (he : e < NENV) (hne : s.status e ≠ .ENV_FREE)
    (hother : ∀ c, c ≠ s.cpunum → s.runs c ≠ some e) :
  Others s'
  := by
  constructor
  · intro c c' x hc hc'
    rw [h.runs] at hc hc'
    exact hs.one hc hc'
  · intro c x hcn hc
    rw [h.cpunum] at hcn
    rw [h.runs] at hc
    have hxe : x ≠ e := by
      rintro rfl
      exact hother c hcn hc
    rw [State.Busy, State.status, h.others x hxe]
    exact hs.others hcn hc
  · intro c hcn hc
    rw [h.cpunum] at hcn
    rw [h.cpus] at hc
    rw [h.runs]
    exact hs.halted hcn hc
  · rw [h.cpus, h.cpunum]
    exact hs.awake
  · exact h.envsOk hs.envs he hne
  · exact h.freedOk hs.freed hother

/-- The environment that was freed is not the current one any more. -/
theorem setCurenv (h : FreedEnv e s s') (hs : Others s) (he : e < NENV)
    (hne : s.status e ≠ .ENV_FREE) (hcur : s.curenv = some e) :
  Entered (s'.setCurenv none)
  := by
  have hother : ∀ c, c ≠ s.cpunum → s.runs c ≠ some e := fun c hcn hc => hcn (hs.one hc hcur)
  have hs' := h.other hs he hne hother
  have hself : (s'.setCurenv none).runs s'.cpunum = none := State.runs_setCurenv_self s' none
  have hruns : ∀ {c x}, (s'.setCurenv none).runs c = some x → c ≠ s'.cpunum ∧ s'.runs c = some x := by
    intro c x hc
    have hcn : c ≠ s'.cpunum := by
      rintro rfl
      rw [hself] at hc
      cases hc
    rw [State.runs_setCurenv_of_ne s' none hcn] at hc
    exact ⟨hcn, hc⟩
  apply Others.entered
  · constructor
    · exact fun hc hc' => hs'.one (hruns hc).2 (hruns hc').2
    · exact fun _ hc => hs'.others (hruns hc).1 (hruns hc).2
    · intro c hne hc
      have hcn : c ≠ s'.cpunum := hne
      rw [State.runs_setCurenv_of_ne s' none hcn]
      simp only [State.setCurenv, State.setCpu, Function.update_of_ne hcn] at hc
      exact hs'.halted hcn hc
    · change ((s'.setCurenv none).cpus s'.cpunum).cpuStatus ≠ .CPU_HALTED
      simp only [State.setCurenv, State.setCpu, Function.update_self]
      exact hs'.awake
    · exact hs'.envs.congr (fun _ => rfl) (fun _ => rfl) rfl (fun _ => Iff.rfl)
    · exact hs'.freed
  · exact hself

end FreedEnv

/-! ### Destroying environments -/

theorem FreedEnv.kept {e : Nat} (h : FreedEnv e s s') (hdying : s.status e ≠ .ENV_DYING) :
  Kept s s'
  := by
  intro x hx
  by_cases hxe : x = e
  · rw [hxe] at hx ⊢
    obtain hx | hx := hx
    · rw [hx]
      exact h.status
    · exact (hdying hx).elim
  · exact congrArg Env.envStatus (h.others x hxe)

/-- Destroying the current environment. -/
theorem envDestroy_current (hs : Entered s) {e : Nat} (hcur : s.curenv = some e) :
  Leaves (envDestroy e) s
  := by
  obtain ⟨he, hne, hdying⟩ := hs.current hcur
  rw [Leaves, envDestroy, mayEnd_bind, mayEnd_get, mayEnd_ite]
  constructor
  · rintro ⟨-, hother⟩
    exact (hother hcur).elim
  · intro _
    rw [mayEnd_bind]
    apply (envFree_ok s e).mono
    · intro _ s' h
      rw [mayEnd_bind, mayEnd_get, if_pos (h.curenv.trans hcur), mayEnd_bind, mayEnd_modify]
      apply (schedYield_leaves (h.setCurenv hs.toOthers he hne hcur)).mono
      · exact fun _ _ h' => h'.elim
      · rintro s'' ⟨hex, hkept⟩
        exact ⟨hex, (h.kept hdying).trans hkept⟩
    · exact fun _ h => h.elim

/-- An environment that is destroyed must not be marked as dying already. -/
theorem envDestroy_safe (hs : Entered s) (hrun : Running s) {e : Nat} (he : e < NENV)
    (hne : s.status e ≠ .ENV_FREE) (hdying : s.status e ≠ .ENV_DYING) :
  Safe (envDestroy e) s
  := by
  by_cases hcur : s.curenv = some e
  · exact (envDestroy_current hs hcur).safe
  rw [envDestroy]
  apply safe_get_bind
  split
  case isTrue hmark =>
    rw [Safe, mayEnd_modify]
    refine ⟨?_, rfl, .setEnv s _ hdying⟩
    apply hs.setEnv hrun
    · exact ⟨⟨by simp, hne⟩, fun _ _ _ => rfl, fun hself => (hcur hself).elim⟩
    · rfl
    · rfl
  case isFalse hfree =>
    -- no other processor runs the environment
    have hother : ∀ c, c ≠ s.cpunum → s.runs c ≠ some e := by
      intro c hcn hc
      obtain ⟨-, hbusy | hbusy⟩ := hs.others hcn hc
      · exact hfree ⟨hbusy, hcur⟩
      · exact hdying hbusy
    rw [Safe, mayEnd_bind]
    apply (envFree_ok s e).mono
    · intro _ s' h
      have hkeep : ∀ {x}, s'.curenv = some x → s.curenv = some x ∧ s'.status x = s.status x := by
        intro x hx
        rw [h.curenv] at hx
        have hxe : x ≠ e := by
          rintro rfl
          exact hcur hx
        exact ⟨hx, congrArg Env.envStatus (h.others x hxe)⟩
      have hno : ¬ s'.curenv = some e := by
        rw [h.curenv]
        exact hcur
      rw [mayEnd_bind, mayEnd_get, if_neg hno, mayEnd_pure]
      refine ⟨⟨h.other hs.toOthers he hne hother, ?_, ?_⟩, h.curenv, (h.kept hdying).marked⟩
      · intro x hx
        obtain ⟨hx, hst⟩ := hkeep hx
        rw [hst]
        exact hs.current hx
      · intro x hx hxrun
        obtain ⟨hx, hst⟩ := hkeep hx
        rw [hst, hrun x hx] at hxrun
        cases hxrun
    · exact fun _ h => h.elim

/-- A check of the memory of the current environment returns, or does not. -/
theorem userMemAssert_ok (hs : Entered s) (d : Decisions) {e : Nat} (hcur : s.curenv = some e) :
  (userMemAssert d e).MayEnd s (fun _ s' => s' = s) (fun s' => Exclusive s' ∧ Marked s s')
  := by
  rw [userMemAssert]
  split
  · exact mayEnd_pure () |>.mpr rfl
  · exact (envDestroy_current hs hcur).mono (fun _ _ h => h.elim) (fun _ h => ⟨h.1, h.2.marked⟩)

end Jos.Smp
