import Jos.Lib.Chain
import Jos.Lib.Frame
import Jos.Smp.Kernel

/-!
# Who runs which environment

Between two entries of the kernel every processor runs an environment of its own, which
has the status `ENV_RUNNING` or is marked as dying.  While a processor is in the kernel this
holds of all other processors.  The functions of the kernel keep this as long as nobody
sets the status of an environment that is running elsewhere.
-/

namespace Jos.Smp

open Bytes Prog

variable {s s' s'' : State}

/-! ### The state -/

namespace State

/-- The status of the environment `e`. -/
def status (s : State) (e : Nat) : EnvStatus :=
  (s.envs e).envStatus

/-- The environment a processor runs. -/
def runs (s : State) (c : Nat) : Option Nat :=
  (s.cpus c).cpuEnv

/-- Whether the environment `e` is in use by a processor: it runs, or will be freed when it
enters the kernel. -/
def Busy (s : State) (e : Nat) : Prop :=
  s.status e = .ENV_RUNNING ∨ s.status e = .ENV_DYING

theorem curenv_eq (s : State) :
  s.curenv = s.runs s.cpunum
  := rfl

theorem status_setEnv_self (s : State) (e : Nat) (env : Env) :
  (s.setEnv e env).status e = env.envStatus
  := by
  simp only [status, setEnv, Function.update_self]

theorem status_setEnv_of_ne (s : State) {e e' : Nat} (env : Env) (h : e' ≠ e) :
  (s.setEnv e env).status e' = s.status e'
  := by
  simp only [status, setEnv, Function.update_of_ne h]

theorem envs_setEnv_of_ne (s : State) {e e' : Nat} (env : Env) (h : e' ≠ e) :
  (s.setEnv e env).envs e' = s.envs e'
  := by
  simp only [setEnv, Function.update_of_ne h]

theorem envs_setEnv_self (s : State) (e : Nat) (env : Env) :
  (s.setEnv e env).envs e = env
  := by
  simp only [setEnv, Function.update_self]

theorem runs_setCurenv_self (s : State) (o : Option Nat) :
  (s.setCurenv o).runs s.cpunum = o
  := by
  simp only [runs, setCurenv, setCpu, Function.update_self]

theorem runs_setCurenv_of_ne (s : State) {c : Nat} (o : Option Nat) (h : c ≠ s.cpunum) :
  (s.setCurenv o).runs c = s.runs c
  := by
  simp only [runs, setCurenv, setCpu, Function.update_of_ne h]

end State

/-- The environments on the free list are free, and identifiers tell environments apart. -/
structure EnvsOk (s : State) : Prop where
  ids : ∀ e < NENV, s.status e ≠ .ENV_FREE → ENVX (s.envs e).envId = e
  free : ∃ l, Chain (fun e => (s.envs e).envLink) s.envFreeList l ∧ l.Nodup
    ∧ ∀ e ∈ l, e < NENV ∧ s.status e = .ENV_FREE

/-- Which environments are free, their identifiers and their links decide. -/
theorem EnvsOk.congr (hs : EnvsOk s) (hids : ∀ e, (s'.envs e).envId = (s.envs e).envId)
    (hlinks : ∀ e, (s'.envs e).envLink = (s.envs e).envLink)
    (hlist : s'.envFreeList = s.envFreeList)
    (hfree : ∀ e, s'.status e = .ENV_FREE ↔ s.status e = .ENV_FREE) :
  EnvsOk s'
  := by
  obtain ⟨hs, l, hl, hnodup, hlfree⟩ := hs
  constructor
  · intro e he hne
    rw [hids e]
    apply hs e he
    rw [ne_eq, ← hfree e]
    exact hne
  · refine ⟨l, ?_, hnodup, ?_⟩
    · rw [hlist]
      exact hl.congr (fun e _ => hlinks e)
    · intro e he
      rw [hfree e]
      exact hlfree e he

/-- No environment was freed while another processor was running it. -/
def FreedOk (s : State) : Prop :=
  ∀ f ∈ s.freed, ∀ c, c ≠ f.cpu → (f.cpus c).cpuEnv ≠ some f.env

/-- Every processor runs an environment of its own. -/
structure Exclusive (s : State) : Prop where
  one : ∀ {c c' e}, s.runs c = some e → s.runs c' = some e → c = c'
  busy : ∀ {c e}, s.runs c = some e → e < NENV ∧ s.Busy e
  halted : ∀ {c}, (s.cpus c).cpuStatus = .CPU_HALTED → s.runs c = none
  envs : EnvsOk s
  freed : FreedOk s

/-- What holds of the processors that are not in the kernel. -/
structure Others (s : State) : Prop where
  one : ∀ {c c' e}, s.runs c = some e → s.runs c' = some e → c = c'
  others : ∀ {c e}, c ≠ s.cpunum → s.runs c = some e → e < NENV ∧ s.Busy e
  halted : ∀ {c}, c ≠ s.cpunum → (s.cpus c).cpuStatus = .CPU_HALTED → s.runs c = none
  awake : (s.cpus s.cpunum).cpuStatus ≠ .CPU_HALTED
  envs : EnvsOk s
  freed : FreedOk s

/-- What holds while a processor is in the kernel: the current environment exists, and it is
not taken up again unless it is running. -/
structure Entered (s : State) : Prop extends Others s where
  current : ∀ {e}, s.curenv = some e → e < NENV ∧ s.status e ≠ .ENV_FREE ∧ s.status e ≠ .ENV_DYING
  ready : ∀ {e}, s.curenv = some e → s.status e = .ENV_RUNNABLE →
    ∃ e' < NENV, e' ≠ e ∧ s.status e' = .ENV_RUNNABLE

/-- Without a current environment nothing more is needed. -/
theorem Others.entered (hs : Others s) (hcur : s.curenv = none) :
  Entered s
  := by
  refine ⟨hs, ?_, ?_⟩
  · intro e he
    rw [hcur] at he
    cases he
  · intro e he
    rw [hcur] at he
    cases he

/-- The environments that are marked stay so. -/
def Marked (s s' : State) : Prop :=
  ∀ e, s.status e = .ENV_DYING → s'.status e = .ENV_DYING

theorem Marked.refl (s : State) :
  Marked s s
  := fun _ h => h

theorem Marked.trans (h : Marked s s') (h' : Marked s' s'') :
  Marked s s''
  := fun e he => h' e (h e he)

/-- Programs that keep the invariant, and the marks. -/
def Safe {α : Type} (m : Prog State α) (s : State) : Prop :=
  m.MayEnd s (fun _ s' => Entered s' ∧ s'.curenv = s.curenv ∧ Marked s s')
    (fun s' => Exclusive s' ∧ Marked s s')

/-! ### Changes that do not matter -/

/-- `s'` differs from `s` in what the invariant does not speak of. -/
structure Alike (s s' : State) : Prop where
  cpus : s'.cpus = s.cpus
  cpunum : s'.cpunum = s.cpunum
  status : ∀ e, s'.status e = s.status e
  ids : ∀ e, (s'.envs e).envId = (s.envs e).envId
  links : ∀ e, (s'.envs e).envLink = (s.envs e).envLink
  free : s'.envFreeList = s.envFreeList
  freed : s'.freed = s.freed

namespace Alike

theorem runs (h : Alike s s') (c : Nat) :
  s'.runs c = s.runs c
  := congrArg (fun f => (f c).cpuEnv) h.cpus

theorem curenv (h : Alike s s') :
  s'.curenv = s.curenv
  := by
  rw [State.curenv_eq, State.curenv_eq, h.cpunum]
  exact h.runs s.cpunum

theorem busy (h : Alike s s') {e : Nat} (he : s.Busy e) :
  s'.Busy e
  := by
  rw [State.Busy, h.status e]
  exact he

theorem marked (h : Alike s s') :
  Marked s s'
  := fun e he => (h.status e).trans he

theorem envsOk (h : Alike s s') (hs : EnvsOk s) :
  EnvsOk s'
  := by
  apply hs.congr h.ids h.links h.free
  intro e
  rw [h.status e]

theorem freedOk (h : Alike s s') (hs : FreedOk s) :
  FreedOk s'
  := by
  unfold FreedOk
  rw [h.freed]
  exact hs

theorem others (h : Alike s s') (hs : Others s) :
  Others s'
  := by
  constructor
  · intro c c' e hc hc'
    rw [h.runs] at hc hc'
    exact hs.one hc hc'
  · intro c e hne hc
    rw [h.cpunum] at hne
    rw [h.runs] at hc
    exact ⟨(hs.others hne hc).1, h.busy (hs.others hne hc).2⟩
  · intro c hne hc
    rw [h.cpunum] at hne
    rw [h.cpus] at hc
    rw [h.runs]
    exact hs.halted hne hc
  · rw [h.cpus, h.cpunum]
    exact hs.awake
  · exact h.envsOk hs.envs
  · exact h.freedOk hs.freed

theorem entered (h : Alike s s') (hs : Entered s) :
  Entered s'
  := by
  constructor
  · exact h.others hs.toOthers
  · intro e he
    rw [h.curenv] at he
    rw [h.status e]
    exact hs.current he
  · intro e he hrun
    rw [h.curenv] at he
    rw [h.status e] at hrun
    obtain ⟨e', he', hne, hrun'⟩ := hs.ready he hrun
    exact ⟨e', he', hne, (h.status e').trans hrun'⟩

/-- Setting other parts of an environment. -/
theorem setEnv (s : State) (e : Nat) {env : Env} (hst : env.envStatus = s.status e)
    (hid : env.envId = (s.envs e).envId) (hlink : env.envLink = (s.envs e).envLink) :
  Alike s (s.setEnv e env)
  := by
  have hcases : ∀ {β : Type} (f : Env → β), f env = f (s.envs e) →
      ∀ x, f ((s.setEnv e env).envs x) = f (s.envs x) := by
    intro β f hf x
    by_cases hx : x = e
    · rw [hx, State.envs_setEnv_self]
      exact hf
    · rw [State.envs_setEnv_of_ne s env hx]
  exact ⟨rfl, rfl, hcases Env.envStatus hst, hcases Env.envId hid,
    hcases Env.envLink hlink, rfl, rfl⟩

end Alike

/-! ### Rules -/

theorem safe_pure {α : Type} (hs : Entered s) (a : α) :
  Safe (pure a) s
  := by
  rw [Safe, mayEnd_pure]
  exact ⟨hs, rfl, .refl s⟩

theorem safe_panic {α : Type} (msg : String) :
  Safe (Prog.panic msg : Prog State α) s
  := mayEnd_panic msg

theorem Safe.bind {α β : Type} {m : Prog State α} {f : α → Prog State β} (hm : Safe m s)
    (hf : ∀ a s', Entered s' → s'.curenv = s.curenv → Marked s s' → Safe (f a) s') :
  Safe (m >>= f) s
  := by
  rw [Safe, mayEnd_bind]
  apply hm.mono
  · rintro a s' ⟨hs', hcur, hmark⟩
    apply (hf a s' hs' hcur hmark).mono
    · rintro _ s'' ⟨hs'', hcur', hmark'⟩
      exact ⟨hs'', hcur'.trans hcur, hmark.trans hmark'⟩
    · rintro s'' ⟨hs'', hmark'⟩
      exact ⟨hs'', hmark.trans hmark'⟩
  · exact fun _ h => h

theorem safe_get_bind {α : Type} {f : State → Prog State α} (h : Safe (f s) s) :
  Safe (get >>= f) s
  := by
  rw [Safe, mayEnd_bind, mayEnd_get]
  exact h

theorem safe_modify {f : State → State} (hs : Entered s) (h : Alike s (f s)) :
  Safe (modify f : Prog State PUnit) s
  := by
  rw [Safe, mayEnd_modify]
  exact ⟨h.entered hs, h.curenv, h.marked⟩

/-- The current environment. -/
theorem safe_curenv_bind {α : Type} {f : Nat → Prog State α}
    (h : ∀ e, s.curenv = some e → Safe (f e) s) :
  Safe (curenv >>= f) s
  := by
  rw [Safe, curenv, mayEnd_bind, mayEnd_bind, mayEnd_get, mayEnd_orElse]
  constructor
  · exact fun e he => h e he
  · exact fun _ => mayEnd_fault 0

/-! ### Finding environments -/

namespace State

/-- Whether the environment `e` is the current one or a child of it. -/
def owns (s : State) (e : Nat) : Prop :=
  ∃ cur, s.curenv = some cur ∧ (cur = e ∨ (s.envs e).envParentId = (s.envs cur).envId)

/-- Whether an identifier that is passed to a system call is that of the environment `e`. -/
def Names (s : State) (envid : Word) (checkperm : Bool) (e : Nat) : Prop :=
  if envid = 0 then
    s.curenv = some e
  else
    ENVX envid = e ∧ s.status e ≠ .ENV_FREE ∧ (s.envs e).envId = envid
      ∧ (checkperm = true → s.owns e)

end State

/-- An environment that is named exists. -/
theorem Entered.named (hs : Entered s) {envid : Word} {checkperm : Bool} {e : Nat}
    (h : s.Names envid checkperm e) :
  e < NENV ∧ s.status e ≠ .ENV_FREE
  := by
  unfold State.Names at h
  split at h
  · obtain ⟨hlt, hne, -⟩ := hs.current h
    exact ⟨hlt, hne⟩
  · obtain ⟨rfl, hne, -⟩ := h
    exact ⟨ENVX_lt envid, hne⟩

theorem safe_envid2env_bind {α : Type} {envid : Word} {checkperm : Bool}
    {f : Option Nat → Prog State α} (hnone : Safe (f none) s)
    (hsome : ∀ e, s.Names envid checkperm e → Safe (f (some e)) s) (hcur : s.curenv ≠ none) :
  Safe (envid2env envid checkperm >>= f) s
  := by
  have hnames : ∀ {e}, (envid ≠ 0 → ENVX envid = e ∧ s.status e ≠ .ENV_FREE
      ∧ (s.envs e).envId = envid ∧ (checkperm = true → s.owns e)) →
      (envid = 0 → s.curenv = some e) → s.Names envid checkperm e := by
    intro e hother hself
    unfold State.Names
    split
    case isTrue h0 => exact hself h0
    case isFalse h0 => exact hother h0
  rw [Safe, envid2env, mayEnd_bind, mayEnd_ite]
  constructor
  · intro h0
    rw [mayEnd_bind, mayEnd_get, mayEnd_pure]
    change Safe (f s.curenv) s
    obtain ⟨e, hc⟩ := Option.ne_none_iff_exists'.mp hcur
    rw [hc]
    exact hsome e (hnames (fun h => (h h0).elim) (fun _ => hc))
  · intro h0
    rw [mayEnd_bind, mayEnd_get, mayEnd_ite]
    constructor
    · intro _
      rw [mayEnd_pure]
      exact hnone
    · intro hid
      simp only [not_or, ne_eq, not_not] at hid
      have hfound : (checkperm = true → s.owns (ENVX envid)) →
          Safe (f (some (ENVX envid))) s := by
        intro hown
        exact hsome _ (hnames (fun _ => ⟨rfl, hid.1, hid.2, hown⟩) (fun h => (h0 h).elim))
      rw [mayEnd_ite]
      constructor
      · rintro ⟨hcheck, hne⟩
        rw [curenv, mayEnd_bind, mayEnd_bind, mayEnd_get, mayEnd_orElse]
        constructor
        · intro cur hc
          rw [mayEnd_ite, mayEnd_pure, mayEnd_pure]
          constructor
          · exact fun _ => hnone
          · intro hparent
            rw [ne_eq, not_not] at hparent
            exact hfound (fun _ => ⟨cur, hc, Or.inr hparent⟩)
        · exact fun _ => mayEnd_fault 0
      · intro hself
        rw [mayEnd_pure]
        apply hfound
        intro hcheck
        have hc : s.curenv = some (ENVX envid) := by
          by_contra hne
          exact hself ⟨hcheck, hne⟩
        exact ⟨_, hc, Or.inl rfl⟩

/-! ### Changing a status -/

/-- The current environment is running. -/
def Running (s : State) : Prop :=
  ∀ cur, s.curenv = some cur → s.status cur = .ENV_RUNNING

theorem Alike.running (h : Alike s s') (hrun : Running s) :
  Running s'
  := by
  intro cur hcur
  rw [h.curenv] at hcur
  exact (h.status cur).trans (hrun cur hcur)

/-- Whether the status of the environment `e` may be set: if it runs on another processor it
is only marked, and if it is the current environment it may only become runnable if the
scheduler finds another one. -/
structure Settable (s : State) (e : Nat) (st : EnvStatus) : Prop where
  used : st ≠ .ENV_FREE ∧ s.status e ≠ .ENV_FREE
  other : ∀ c, c ≠ s.cpunum → s.runs c = some e → st = .ENV_DYING
  self : s.curenv = some e → st ≠ .ENV_DYING
    ∧ (st = .ENV_RUNNABLE → ∃ e' < NENV, e' ≠ e ∧ s.status e' = .ENV_RUNNABLE)

/-- Setting a status that may be set. -/
theorem Entered.setEnv (hs : Entered s) (hrun : Running s) {e : Nat} {env : Env}
    (h : Settable s e env.envStatus) (hid : env.envId = (s.envs e).envId)
    (hlink : env.envLink = (s.envs e).envLink) :
  Entered (s.setEnv e env)
  := by
  obtain ⟨s', hs'⟩ : ∃ s', s' = s.setEnv e env := ⟨_, rfl⟩
  have hself : s'.status e = env.envStatus := by
    rw [hs', State.status_setEnv_self]
  have hother : ∀ x, x ≠ e → s'.envs x = s.envs x := by
    intro x hx
    rw [hs', State.envs_setEnv_of_ne _ _ hx]
  have hstatus : ∀ x, x ≠ e → s'.status x = s.status x :=
    fun x hx => congrArg Env.envStatus (hother x hx)
  have hruns : ∀ c, s'.runs c = s.runs c := by
    intro c
    rw [hs']
    rfl
  have hnum : s'.cpunum = s.cpunum := by
    rw [hs']
    rfl
  have hcur : s'.curenv = s.curenv := by
    rw [hs']
    rfl
  rw [← hs']
  refine ⟨⟨?_, ?_, ?_, ?_, ?_, ?_⟩, ?_, ?_⟩
  · intro c c' x hc hc'
    rw [hruns] at hc hc'
    exact hs.one hc hc'
  · intro c x hcn hc
    rw [hruns] at hc
    rw [hnum] at hcn
    obtain ⟨hx, hbusy⟩ := hs.others hcn hc
    refine ⟨hx, ?_⟩
    by_cases hxe : x = e
    · right
      rw [hxe, hself]
      rw [hxe] at hc
      exact h.other c hcn hc
    · rw [State.Busy, hstatus x hxe]
      exact hbusy
  · rw [hs']
    exact hs.halted
  · rw [hs']
    exact hs.awake
  · apply EnvsOk.congr hs.envs
    · intro x
      by_cases hxe : x = e
      · rw [hs', hxe, State.envs_setEnv_self]
        exact hid
      · rw [hother x hxe]
    · intro x
      by_cases hxe : x = e
      · rw [hs', hxe, State.envs_setEnv_self]
        exact hlink
      · rw [hother x hxe]
    · rw [hs']
      rfl
    · intro x
      by_cases hxe : x = e
      · rw [hxe, hself]
        exact iff_of_false h.used.1 h.used.2
      · rw [hstatus x hxe]
  · rw [hs']
    exact hs.freed
  · intro x hx
    rw [hcur] at hx
    obtain ⟨hlt, hfree, hdying⟩ := hs.current hx
    by_cases hxe : x = e
    · rw [hxe] at hx hlt ⊢
      rw [hself]
      exact ⟨hlt, h.used.1, (h.self hx).1⟩
    · rw [hstatus x hxe]
      exact ⟨hlt, hfree, hdying⟩
  · intro x hx hxrun
    rw [hcur] at hx
    by_cases hxe : x = e
    · rw [hxe] at hx hxrun ⊢
      rw [hself] at hxrun
      obtain ⟨e', he', hne, hrun'⟩ := (h.self hx).2 hxrun
      exact ⟨e', he', hne, (hstatus e' hne).trans hrun'⟩
    · rw [hstatus x hxe, hrun x hx] at hxrun
      cases hxrun

/-- Setting the status of an environment that is not marked keeps all marks. -/
theorem Marked.setEnv (s : State) {e : Nat} (env : Env) (h : s.status e ≠ .ENV_DYING) :
  Marked s (s.setEnv e env)
  := by
  intro x hx
  have hxe : x ≠ e := by
    rintro rfl
    exact h hx
  rw [State.status_setEnv_of_ne _ _ hxe]
  exact hx

/-! ### Creating environments -/

/-- Taking an environment from the free list. -/
theorem Entered.alloc (hs : Entered s) (hrun : Running s) {e : Nat} {env : Env}
    (hlist : s.envFreeList = some e) (hst : env.envStatus = .ENV_RUNNABLE)
    (hid : env.envId = nextEnvId e (s.envs e).envId)
    (hlink : env.envLink = (s.envs e).envLink) :
  Entered { s.setEnv e env with envFreeList := env.envLink } ∧ e < NENV ∧ s.status e = .ENV_FREE
  := by
  obtain ⟨hids, l, hl, hnodup, hfree⟩ := hs.envs
  rw [hlist] at hl
  obtain ⟨l', rfl, hl'⟩ := hl.eq_cons
  obtain ⟨he, hefree⟩ := hfree e List.mem_cons_self
  rw [List.nodup_cons] at hnodup
  refine ⟨?_, he, hefree⟩
  obtain ⟨s', hs'⟩ : ∃ s', s' = { s.setEnv e env with envFreeList := env.envLink } := ⟨_, rfl⟩
  have henv : s'.envs e = env := by
    rw [hs']
    exact State.envs_setEnv_self _ _ _
  have hself : s'.status e = .ENV_RUNNABLE := by
    rw [State.status, henv]
    exact hst
  have hother : ∀ x, x ≠ e → s'.envs x = s.envs x := by
    intro x hx
    rw [hs']
    exact State.envs_setEnv_of_ne _ _ hx
  have hstatus : ∀ x, x ≠ e → s'.status x = s.status x :=
    fun x hx => congrArg Env.envStatus (hother x hx)
  have hruns : ∀ c, s'.runs c = s.runs c := by
    intro c
    rw [hs']
    rfl
  have hnum : s'.cpunum = s.cpunum := by
    rw [hs']
    rfl
  have hcur : s'.curenv = s.curenv := by
    rw [hs']
    rfl
  have hne : ∀ {x}, s.status x ≠ .ENV_FREE → x ≠ e := by
    rintro x hx rfl
    exact hx hefree
  rw [← hs']
  refine ⟨⟨?_, ?_, ?_, ?_, ⟨?_, l', ?_, hnodup.2, ?_⟩, ?_⟩, ?_, ?_⟩
  · intro c c' x hc hc'
    rw [hruns] at hc hc'
    exact hs.one hc hc'
  · intro c x hcn hc
    rw [hruns] at hc
    rw [hnum] at hcn
    obtain ⟨hx, hbusy⟩ := hs.others hcn hc
    have hxe : x ≠ e := by
      apply hne
      obtain h | h := hbusy
      · rw [h]
        simp
      · rw [h]
        simp
    rw [State.Busy, hstatus x hxe]
    exact ⟨hx, hbusy⟩
  · rw [hs']
    exact hs.halted
  · rw [hs']
    exact hs.awake
  · intro x hx hxne
    by_cases hxe : x = e
    · rw [hxe, henv, hid]
      exact ENVX_nextEnvId he _
    · rw [hstatus x hxe] at hxne
      rw [hother x hxe]
      exact hids x hx hxne
  · have hhead : s'.envFreeList = (s.envs e).envLink := by
      rw [hs']
      exact hlink
    rw [hhead]
    apply hl'.congr
    intro x hx
    have hxe : x ≠ e := by
      rintro rfl
      exact hnodup.1 hx
    rw [hother x hxe]
  · intro x hx
    have hxe : x ≠ e := by
      rintro rfl
      exact hnodup.1 hx
    rw [hstatus x hxe]
    exact hfree x (List.mem_cons_of_mem e hx)
  · rw [hs']
    exact hs.freed
  · intro x hx
    rw [hcur] at hx
    obtain ⟨hlt, hxfree, hdying⟩ := hs.current hx
    rw [hstatus x (hne hxfree)]
    exact ⟨hlt, hxfree, hdying⟩
  · intro x hx hxrun
    rw [hcur] at hx
    rw [hstatus x (hne (hs.current hx).2.1), hrun x hx] at hxrun
    cases hxrun

end Jos.Smp
