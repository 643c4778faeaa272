import Jos.Kern.EnvIds
import Jos.Root.Machine
import Jos.Root.MemOnly

/-!
# Identifiers of environments

An environment of the kernel in `kern/` gets an identifier of a positive generation when it is
allocated, and a slot of `envs` never goes back to having none.  This needs nothing of the page
tables: it holds in every run of the machine, also where memory is in disorder.
-/

namespace Jos

namespace Root

open Bytes Prog

variable {s s' s'' : Kernel} {g g' : Host} {α β : Type} {e : Nat}

/-! ### Identifiers -/

/-- An identifier that was given out: a generation that is not `0`, and the number of a slot. -/
def Issued (envid : Word) : Prop :=
  ∃ g e, 0 < g ∧ g < 2 ^ 19 ∧ e < NENV ∧ envid.toNat = g * 4096 + e

theorem Issued.le {envid : Word} (h : Issued envid) :
  4096 ≤ envid.toNat
  := by
  obtain ⟨g, e, hg, -, -, heq⟩ := h
  omega

/-- The next identifier of a slot is one that is given out. -/
theorem issued_nextEnvId (he : e < NENV) {envid : Word} (h : envid = 0 ∨ Issued envid) :
  Issued (nextEnvId e envid)
  := by
  have hgen : ∃ g, g < 2 ^ 19 ∧ envid.toNat / 1024 = g * 4 := by
    obtain rfl | ⟨g, e', -, hlt, he', heq⟩ := h
    · use 0
      decide
    · use g, hlt
      simp only [NENV] at he'
      omega
  obtain ⟨g, hlt, hg⟩ := hgen
  have hnext := nextEnvId_toNat he hlt hg
  by_cases hmore : g + 1 < 2 ^ 19
  · rw [if_pos hmore] at hnext
    exact ⟨g + 1, e, Nat.succ_pos g, hmore, he, hnext⟩
  · rw [if_neg hmore] at hnext
    exact ⟨1, e, Nat.one_pos, by decide, he, hnext⟩

/-! ### What every step keeps -/

/-- A slot that was allocated at some time. -/
structure Known (s : Kernel) (e : Nat) : Prop where
  lt : e < NENV
  issued : Issued (s.envs e).envId

/-- The environments in use have identifiers, and the list of the others stays inside `envs`. -/
structure Named (s : Kernel) : Prop where
  id : ∀ e < NENV, (s.envs e).envId = 0 ∨ Issued (s.envs e).envId
  live : ∀ e < NENV, (s.envs e).envStatus ≠ .ENV_FREE → Issued (s.envs e).envId
  link : ∀ e < NENV, ∀ e', (s.envs e).envLink = some e' → e' < NENV
  head : ∀ e, s.envFreeList = some e → e < NENV
  current : ∀ e, s.curenv = some e → Known s e

/-- From `s` to `s'` no slot has lost its identifier, and no message its sender. -/
structure Moved (s s' : Kernel) : Prop where
  named : Named s'
  known : ∀ {e}, Known s e → Known s' e
  sender : ∀ {e}, e < NENV → Issued (s.envs e).envIpcFrom → Issued (s'.envs e).envIpcFrom

theorem Moved.refl (h : Named s) :
  Moved s s
  := ⟨h, fun hk => hk, fun _ hs => hs⟩

theorem Moved.trans (h : Moved s s') (h' : Moved s' s'') :
  Moved s s''
  := ⟨h'.named, fun hk => h'.known (h.known hk), fun he hs => h'.sender he (h.sender he hs)⟩

/-- The environments stay as they are, and the list and the current one keep to those there are. -/
theorem Named.congr (h : Named s) (henvs : s'.envs = s.envs)
    (hhead : ∀ e, s'.envFreeList = some e → e < NENV)
    (hcur : ∀ e, s'.curenv = some e → Known s e) :
  Moved s s'
  := by
  have hknown : ∀ {e}, Known s e → Known s' e := by
    rintro e ⟨hlt, hid⟩
    use hlt
    rw [henvs]
    exact hid
  constructor
  case named =>
    constructor
    case id =>
      rw [henvs]
      exact h.id
    case live =>
      rw [henvs]
      exact h.live
    case link =>
      rw [henvs]
      exact h.link
    case head => exact hhead
    case current => exact fun e he => hknown (hcur e he)
  case known => exact hknown
  case sender =>
    intro e _ hs
    rw [henvs]
    exact hs

/-- Changes that leave the environments alone. -/
theorem Named.memOnly (h : Named s) (hm : MemOnly s s') :
  Moved s s'
  := by
  apply h.congr hm.envs
  · rw [hm.envFreeList]
    exact h.head
  · rw [hm.curenv]
    exact h.current

/-- Another environment, or none, becomes the current one. -/
theorem Named.setCurenv (h : Named s) {cur : Option Nat} (hcur : ∀ e, cur = some e → Known s e) :
  Moved s { s with curenv := cur }
  := h.congr rfl h.head hcur

/-- The list of free environments begins elsewhere. -/
theorem Named.setHead (h : Named s) {head : Option Nat} (hhead : ∀ e, head = some e → e < NENV) :
  Moved s { s with envFreeList := head }
  := h.congr rfl hhead h.current

/-- A slot is changed, and keeps its identifier or gets one. -/
theorem Named.setEnv (h : Named s) (he : e < NENV) {env : Env}
    (hid : env.envId = (s.envs e).envId ∨ Issued env.envId)
    (hlive : env.envStatus ≠ .ENV_FREE → Issued env.envId)
    (hlink : ∀ e', env.envLink = some e' → e' < NENV)
    (hfrom : env.envIpcFrom = (s.envs e).envIpcFrom ∨ Issued env.envIpcFrom) :
  Moved s (s.setEnv e env)
  := by
  have hknown : ∀ {e'}, Known s e' → Known (s.setEnv e env) e' := by
    rintro e' ⟨hlt, hissued⟩
    use hlt
    by_cases hee : e' = e
    · rw [hee, s.setEnv_envs_self]
      rw [hee] at hissued
      obtain hsame | hnew := hid
      · rw [hsame]
        exact hissued
      · exact hnew
    · rw [s.setEnv_envs_of_ne _ hee]
      exact hissued
  constructor
  case named =>
    constructor
    case id =>
      intro e' he'
      by_cases hee : e' = e
      · rw [hee, s.setEnv_envs_self]
        obtain hsame | hnew := hid
        · rw [hsame]
          exact h.id e he
        · exact Or.inr hnew
      · rw [s.setEnv_envs_of_ne _ hee]
        exact h.id e' he'
    case live =>
      intro e' he'
      by_cases hee : e' = e
      · rw [hee, s.setEnv_envs_self]
        exact hlive
      · rw [s.setEnv_envs_of_ne _ hee]
        exact h.live e' he'
    case link =>
      intro e' he'
      by_cases hee : e' = e
      · rw [hee, s.setEnv_envs_self]
        exact hlink
      · rw [s.setEnv_envs_of_ne _ hee]
        exact h.link e' he'
    case head => exact h.head
    case current => exact fun e' he' => hknown (h.current e' he')
  case known => exact hknown
  case sender =>
    intro e' _ hs
    by_cases hee : e' = e
    · rw [hee, s.setEnv_envs_self]
      rw [hee] at hs
      obtain hsame | hnew := hfrom
      · rw [hsame]
        exact hs
      · exact hnew
    · rw [s.setEnv_envs_of_ne _ hee]
      exact hs

/-- A slot that was allocated is changed, but for its identifier and the list. -/
theorem Named.update (h : Named s) (hk : Known s e) {env : Env}
    (hid : env.envId = (s.envs e).envId) (hlink : env.envLink = (s.envs e).envLink)
    (hfrom : env.envIpcFrom = (s.envs e).envIpcFrom) :
  Moved s (s.setEnv e env)
  := by
  apply h.setEnv hk.lt (Or.inl hid) _ _ (Or.inl hfrom)
  · intro _
    rw [hid]
    exact hk.issued
  · intro e' he'
    rw [hlink] at he'
    exact h.link e hk.lt e' he'

/-- The registers of an environment that enters the kernel are saved. -/
theorem Named.entered (h : Named s) (hk : Known s e) (tf : Trapframe) :
  Moved s (entered s e tf)
  := by
  have hset : Moved s (s.setEnv e { s.envs e with envTf := tf }) := h.update hk rfl rfl rfl
  apply hset.trans
  apply hset.named.setCurenv
  rintro e' hee
  obtain rfl := Option.some.inj hee
  exact hset.known hk

/-- An environment that is found has an identifier. -/
theorem Named.found (h : Named s) {cur : Nat} (hcur : s.curenv = some cur) {envid : Word}
    {checkperm : Bool} (hfind : s.findEnv cur envid checkperm = some e) :
  Known s e
  := by
  simp only [Kernel.findEnv] at hfind
  split at hfind
  · obtain rfl := Option.some.inj hfind
    exact h.current cur hcur
  · split at hfind
    · cases hfind
    case isFalse hno =>
      split at hfind
      · cases hfind
      · obtain rfl := Option.some.inj hfind
        use ENVX_lt envid
        apply h.live _ (ENVX_lt envid)
        exact fun hfree => hno (Or.inl hfree)

/-! ### Procedures -/

/-- However the run of `m` from `s` ends, no slot has lost its identifier. -/
def Moves (m : Prog Kernel α) (s : Kernel) : Prop :=
  m.MayEnd s (fun _ s' => Moved s s') (Moved s)

theorem moves_pure (h : Named s) (a : α) :
  Moves (pure a : Prog Kernel α) s
  := mayEnd_pure a |>.mpr (Moved.refl h)

theorem moves_modify {f : Kernel → Kernel} (h : Moved s (f s)) :
  Moves (modify f : Prog Kernel PUnit) s
  := mayEnd_modify.mpr h

theorem moves_panic (msg : String) :
  Moves (panic msg : Prog Kernel α) s
  := mayEnd_panic msg

theorem moves_of_keeps {m : Prog Kernel α} (hm : Keeps MemOnly m) (h : Named s) :
  Moves m s
  := (hm s).mono (fun _ _ hmem => h.memOnly hmem) (fun _ hno => hno.elim)

theorem moves_ite {c : Prop} [Decidable c] {m m' : Prog Kernel α} (h : c → Moves m s)
    (h' : ¬ c → Moves m' s) :
  Moves (if c then m else m') s
  := mayEnd_ite.mpr ⟨h, h'⟩

/-- What follows a procedure starts where the procedure ends. -/
theorem moves_bind {m : Prog Kernel α} {f : α → Prog Kernel β} (hm : Moves m s)
    (hf : ∀ a s', Moved s s' → Moves (f a) s') :
  Moves (m >>= f) s
  := by
  rw [Moves, mayEnd_bind]
  apply hm.mono
  · intro a s' hmoved
    apply (hf a s' hmoved).mono
    · exact fun _ s'' h'' => hmoved.trans h''
    · exact fun s'' h'' => hmoved.trans h''
  · exact fun _ hmoved => hmoved

/-- What follows a procedure that returns. -/
theorem moves_bind_of_eq {m : Prog Kernel α} {f : α → Prog Kernel β} {a : α}
    (heq : m s = .ok (a, s)) (hf : Moves (f a) s) :
  Moves (m >>= f) s
  := (mayEnd_of_bind_eq heq).mpr hf

theorem moves_get_bind {f : Kernel → Prog Kernel α} (hf : Moves (f s) s) :
  Moves (get >>= f) s
  := moves_bind_of_eq rfl hf

/-- A change to a slot that was allocated. -/
theorem moves_update (h : Named s) (hk : Known s e) {f : Kernel → Env}
    (hid : (f s).envId = (s.envs e).envId) (hlink : (f s).envLink = (s.envs e).envLink)
    (hfrom : (f s).envIpcFrom = (s.envs e).envIpcFrom) :
  Moves (modify (fun s => s.setEnv e (f s)) : Prog Kernel PUnit) s
  := moves_modify (h.update hk hid hlink hfrom)

/-! ### Environments -/

theorem moves_envSetupVm (h : Named s) (he : e < NENV) :
  Moves (envSetupVm e) s
  := by
  apply moves_bind (moves_of_keeps (MemOnly.pageAlloc _) h)
  intro r s1 h1
  cases r with
  | none => exact moves_pure h1.named _
  | some p =>
      apply moves_bind (moves_of_keeps (MemOnly.pageIncref p) h1.named)
      intro _ s2 h2
      apply moves_bind (moves_of_keeps (MemOnly.KADDR _) h2.named)
      intro pgdir s3 h3
      have hset : Moved s3 (s3.setEnv e { s3.envs e with envPgdir := some pgdir }) :=
        h3.named.setEnv he (Or.inl rfl) (h3.named.live e he) (h3.named.link e he) (Or.inl rfl)
      apply moves_bind (moves_modify hset)
      intro _ s4 h4
      apply moves_of_keeps _ h4.named
      apply MemOnly.keeps_bind
      · exact keeps_forUp MemOnly.composes (fun _ => MemOnly.setEntry _ _ _) _ _
      · exact fun _ => MemOnly.keeps_bind (MemOnly.setEntry _ _ _) (fun _ => MemOnly.keeps_pure _)

/-- The first free slot is taken off the list and gets its next identifier. -/
theorem Named.allocate (h : Named s) (he : e < NENV) {E : Env}
    (hid : E.envId = nextEnvId e (s.envs e).envId) (hlink : E.envLink = (s.envs e).envLink)
    (hfrom : E.envIpcFrom = (s.envs e).envIpcFrom) :
  Moved s { s.setEnv e E with envFreeList := ((s.setEnv e E).envs e).envLink }
    ∧ Known { s.setEnv e E with envFreeList := ((s.setEnv e E).envs e).envLink } e
  := by
  have hissued : Issued E.envId := by
    rw [hid]
    exact issued_nextEnvId he (h.id e he)
  have hset : Moved s (s.setEnv e E) := by
    apply h.setEnv he (Or.inr hissued) (fun _ => hissued) _ (Or.inl hfrom)
    rw [hlink]
    exact h.link e he
  have hhead := hset.named.setHead (hset.named.link e he)
  use hset.trans hhead
  apply hhead.known
  use he
  rw [s.setEnv_envs_self]
  exact hissued

/-- The environment that is allocated has an identifier. -/
theorem envAlloc_moved (h : Named s) (parentId : Word) :
  (envAlloc parentId).MayEnd s (fun r s' => Moved s s' ∧ ∀ e, r = .ok e → Known s' e) (Moved s)
  := by
  have herror : ∀ {s'} (x : Word), Moved s s' → (pure (.error x) : Prog Kernel (Except Word Nat)).MayEnd
      s' (fun r s' => Moved s s' ∧ ∀ e, r = .ok e → Known s' e) (Moved s) := by
    intro s' x hmoved
    rw [mayEnd_pure]
    use hmoved
    rintro e hno
    cases hno
  rw [envAlloc, mayEnd_bind, mayEnd_get]
  cases hhead : s.envFreeList with
  | none => exact herror _ (Moved.refl h)
  | some e =>
      have he : e < NENV := h.head e hhead
      simp only
      rw [mayEnd_bind]
      apply (moves_envSetupVm h he).mono _ (fun _ h' => h')
      intro r s1 h1
      rw [mayEnd_ite]
      refine ⟨fun _ => herror _ h1, fun _ => ?_⟩
      obtain ⟨h2, hk⟩ := h1.named.allocate he (E := { s1.envs e with
        envId := nextEnvId e (s1.envs e).envId
        envParentId := parentId
        envType := .ENV_TYPE_USER
        envStatus := .ENV_RUNNABLE
        envRuns := 0
        envTf := initialTf
        envPgfaultUpcall := 0
        envIpcRecving := false }) rfl rfl rfl
      rw [mayEnd_bind, mayEnd_modify, mayEnd_bind, mayEnd_modify, mayEnd_pure]
      use h1.trans h2
      rintro e' hee
      obtain rfl : e = e' := Except.ok.inj hee
      exact hk

theorem moves_loadIcode (h : Named s) (hk : Known s e) (binary : Binary) :
  Moves (loadIcode e binary) s
  := by
  apply moves_get_bind
  apply moves_bind (moves_of_keeps (keeps_orElse MemOnly.composes _ (keeps_panic _)) h)
  intro pgdir s1 h1
  apply moves_bind (moves_of_keeps
    (keeps_forUp MemOnly.composes (fun _ => MemOnly.loadSegment _ _ _) _ _) h1.named)
  intro _ s2 h2
  apply moves_bind (moves_update h2.named (h2.known (h1.known hk)) rfl rfl rfl)
  intro _ s3 h3
  exact moves_of_keeps (MemOnly.regionAlloc _ _ _) h3.named

theorem moves_envCreate (h : Named s) (binary : Binary) (type : EnvType) :
  Moves (envCreate binary type) s
  := by
  rw [envCreate, Moves, mayEnd_bind]
  apply (envAlloc_moved h 0).mono _ (fun _ h' => h')
  rintro r s1 ⟨h1, hknown⟩
  cases r with
  | error x => exact mayEnd_fault 0
  | ok e =>
      have hk := hknown e rfl
      have hload : Moves (do
          loadIcode e binary
          modify (fun s => s.setEnv e { s.envs e with envType := type, envParentId := 0 })) s1 := by
        apply moves_bind (moves_loadIcode h1.named hk binary)
        intro _ s2 h2
        exact moves_update h2.named (h2.known hk) rfl rfl rfl
      exact hload.mono (fun _ _ h' => h1.trans h') (fun _ h' => h1.trans h')

theorem moves_envReplace {cur : Nat} (h : Named s) (hcur : s.curenv = some cur) (binary : Binary)
    (type : EnvType) (argc argobt : Word) :
  Moves (envReplace binary type argc argobt) s
  := by
  have hk := h.current cur hcur
  apply moves_bind_of_eq (curenv_eq hcur)
  apply moves_bind (moves_loadIcode h hk binary)
  intro _ s1 h1
  apply moves_get_bind
  apply moves_bind (moves_of_keeps MemOnly.curPgdir h1.named)
  intro pgdir s2 h2
  apply moves_bind (moves_of_keeps (MemOnly.kernStore32 _ _ _) h2.named)
  intro _ s3 h3
  apply moves_bind (moves_of_keeps (MemOnly.kernStore32 _ _ _) h3.named)
  intro _ s4 h4
  exact moves_update h4.named (h4.known (h3.known (h2.known (h1.known hk)))) rfl rfl rfl

theorem moves_envFree (h : Named s) (hk : Known s e) :
  Moves (envFree e) s
  := by
  apply moves_get_bind
  apply moves_bind (moves_of_keeps (keeps_orElse MemOnly.composes _ (keeps_fault _)) h)
  intro pgdir s1 h1
  apply moves_bind (moves_of_keeps
    (keeps_forUp MemOnly.composes (fun _ => MemOnly.envFreePde _ _) _ _) h1.named)
  intro _ s2 h2
  apply moves_bind (moves_update h2.named (h2.known (h1.known hk)) rfl rfl rfl)
  intro _ s3 h3
  apply moves_bind (moves_of_keeps (MemOnly.pa2page _) h3.named)
  intro pp s4 h4
  apply moves_bind (moves_of_keeps (MemOnly.pageDecref _) h4.named)
  intro _ s5 h5
  apply moves_modify
  have hset : Moved s5 (s5.setEnv e { s5.envs e with
      envStatus := .ENV_FREE
      envLink := s5.envFreeList }) :=
    h5.named.setEnv hk.lt (Or.inl rfl) (fun hno => (hno rfl).elim) h5.named.head (Or.inl rfl)
  apply hset.trans
  apply hset.named.setHead
  rintro e' hee
  obtain rfl := Option.some.inj hee
  exact hk.lt

/-- Switching to an environment takes no identifier away. -/
theorem Named.switchTo (h : Named s) (hk : Known s e) :
  Moved s (switchTo s e)
  := by
  have hpre : Moved s s.preempted := by
    rw [Kernel.preempted]
    cases hcur : s.curenv with
    | none => exact Moved.refl h
    | some cur =>
        simp only
        split
        · exact h.update (h.current cur hcur) rfl rfl rfl
        · exact Moved.refl h
  have hset : Moved s.preempted (s.preempted.setEnv e { s.preempted.envs e with
      envStatus := .ENV_RUNNING
      envRuns := (s.preempted.envs e).envRuns + 1 }) :=
    hpre.named.update (hpre.known hk) rfl rfl rfl
  apply hpre.trans (hset.trans _)
  apply hset.named.setCurenv
  rintro e' hee
  obtain rfl := Option.some.inj hee
  exact hset.known (hpre.known hk)

/-- Going on with an environment takes no identifier away. -/
theorem Named.resumed (h : Named s) (hr : Resumed s s') :
  Moved s s'
  := by
  cases hr with
  | stay => exact Moved.refl h
  | halt => exact h.setCurenv (fun e hno => by cases hno)
  | run hlt hst => exact h.switchTo ⟨hlt, h.live _ hlt (by rw [hst]; simp)⟩

theorem moves_envRun (h : Named s) (hk : Known s e) :
  Moves (envRun e : Prog Kernel α) s
  := by
  cases hcur : isCurrent s e with
  | true =>
      rw [envRun, Moves, mayEnd_bind, mayEnd_get, if_pos hcur, mayEnd_leave]
      exact Moved.refl h
  | false =>
      by_cases hpg : (s.envs e).envPgdir = none
      · have hpanic : (envRun e : Prog Kernel α) s
            = .error (.panic "PADDR called with invalid kva 00000000") := by
          rw [envRun_run hcur, if_pos hpg]
          rfl
        exact mayEnd_of_panic hpanic
      · have hleave : (envRun e : Prog Kernel α) s = .error (.leave (Root.switchTo s e)) := by
          rw [envRun_run hcur, if_neg hpg]
          rfl
        exact mayEnd_of_leave hleave |>.mpr (h.switchTo hk)

theorem moves_schedYield (h : Named s) :
  Moves (schedYield : Prog Kernel α) s
  := schedYield_resumed.mono (fun _ _ hno => hno.elim) (fun _ hr => h.resumed hr)

theorem moves_envDestroy (h : Named s) (hk : Known s e) :
  Moves (envDestroy e) s
  := by
  apply moves_get_bind
  apply moves_ite
  · exact fun _ => moves_update h hk rfl rfl rfl
  · intro _
    apply moves_bind (moves_envFree h hk)
    intro _ s1 h1
    apply moves_get_bind
    apply moves_ite
    · intro _
      apply moves_bind (moves_modify (h1.named.setCurenv (fun e hno => by cases hno)))
      exact fun _ s2 h2 => moves_schedYield h2.named
    · exact fun _ => moves_pure h1.named _

theorem moves_userMemAssert (h : Named s) (hk : Known s e) (va len perm : Word) :
  Moves (userMemAssert e va len perm) s
  := by
  apply moves_get_bind
  apply moves_bind (moves_of_keeps (keeps_orElse MemOnly.composes _ (keeps_fault _)) h)
  intro pgdir s1 h1
  apply moves_bind (moves_of_keeps (MemOnly.userMemCheck _ _ _ _) h1.named)
  intro r s2 h2
  apply moves_ite
  · exact fun _ => moves_envDestroy h2.named (h2.known (h1.known hk))
  · exact fun _ => moves_pure h2.named _

/-! ### Guests -/

/-- However the run of `m` from `g` ends, no slot has lost its identifier. -/
def HostMoves (m : Prog Host α) (g : Host) : Prop :=
  m.MayEnd g (fun _ g' => Moved g.kernel g'.kernel) (fun g' => Moved g.kernel g'.kernel)

theorem hostMoves_onKernel {m : Prog Kernel α} (h : Moves m g.kernel) :
  HostMoves (onKernel m) g
  := mayEnd_onKernel h

theorem hostMoves_bind {m : Prog Host α} {f : α → Prog Host β} (hm : HostMoves m g)
    (hf : ∀ a g', Moved g.kernel g'.kernel → HostMoves (f a) g') :
  HostMoves (m >>= f) g
  := by
  rw [HostMoves, mayEnd_bind]
  apply hm.mono
  · intro a g' hmoved
    apply (hf a g' hmoved).mono
    · exact fun _ g'' h'' => hmoved.trans h''
    · exact fun g'' h'' => hmoved.trans h''
  · exact fun _ hmoved => hmoved

theorem hostMoves_pure (h : Named g.kernel) (a : α) :
  HostMoves (pure a : Prog Host α) g
  := mayEnd_pure a |>.mpr (Moved.refl h)

/-- The records of guests are kept beside the environments. -/
theorem hostMoves_setInfo (h : Named g.kernel) (f : Host → VMInfo) :
  HostMoves (modify (fun g => g.setInfo e (f g)) : Prog Host PUnit) g
  := mayEnd_modify.mpr (Moved.refl h)

/-- However the run of `m` from `g` ends, no slot has lost its identifier, and the one that is
allocated has one. -/
def Allocates (m : Prog Host (Except Word Nat)) (g : Host) : Prop :=
  m.MayEnd g (fun r g' => Moved g.kernel g'.kernel ∧ ∀ e, r = .ok e → Known g'.kernel e)
    (fun g' => Moved g.kernel g'.kernel)

theorem allocates_bind {m : Prog Host α} {f : α → Prog Host (Except Word Nat)}
    (hm : HostMoves m g) (hf : ∀ a g', Moved g.kernel g'.kernel → Allocates (f a) g') :
  Allocates (m >>= f) g
  := by
  rw [Allocates, mayEnd_bind]
  apply hm.mono
  · intro a g' hmoved
    apply (hf a g' hmoved).mono
    · exact fun _ g'' h'' => ⟨hmoved.trans h''.1, h''.2⟩
    · exact fun g'' h'' => hmoved.trans h''
  · exact fun _ hmoved => hmoved

theorem allocates_error (h : Named g.kernel) (x : Word) :
  Allocates (pure (.error x)) g
  := by
  apply mayEnd_pure _ |>.mpr
  use Moved.refl h
  rintro e hno
  cases hno

theorem hostMoves_keeps {m : Prog Kernel α} (hm : Keeps MemOnly m) (h : Named g.kernel) :
  HostMoves (onKernel m) g
  := hostMoves_onKernel (moves_of_keeps hm h)

theorem allocates_envGuestAlloc (h : Named g.kernel) (parentId : Word) :
  Allocates (envGuestAlloc parentId) g
  := by
  rw [envGuestAlloc, Allocates, mayEnd_bind, mayEnd_get]
  cases hhead : g.kernel.envFreeList with
  | none => exact allocates_error h _
  | some e =>
      have he : e < NENV := h.head e hhead
      have hpage : ∀ {g' : Host}, Named g'.kernel → HostMoves (onKernel (pageAlloc ALLOC_ZERO)) g' :=
        fun h' => hostMoves_keeps (MemOnly.pageAlloc _) h'
      have hdecref : ∀ {g' : Host} (p : Nat), Named g'.kernel → HostMoves (onKernel (pageDecref p)) g' :=
        fun p h' => hostMoves_keeps (MemOnly.pageDecref p) h'
      apply allocates_bind (hostMoves_setInfo h _)
      intro _ g1 h1
      apply allocates_bind (hpage h1.named)
      intro r g2 h2
      cases r with
      | none => exact allocates_error h2.named _
      | some p =>
          have hclear : HostMoves (onKernel (modify (fun s => s.setPage p {}))) g2 :=
            hostMoves_keeps (MemOnly.keeps_modify (fun _ => ⟨rfl, rfl, rfl⟩)) h2.named
          apply allocates_bind hclear
          intro _ g3 h3
          apply allocates_bind (hostMoves_keeps (MemOnly.pageIncref p) h3.named)
          intro _ g4 h4
          apply allocates_bind (hostMoves_keeps (MemOnly.KADDR _) h4.named)
          intro pgdir g5 h5
          have hset : Moved g5.kernel (g5.kernel.setEnv e { g5.kernel.envs e with
              envPgdir := some pgdir }) :=
            h5.named.setEnv he (Or.inl rfl) (h5.named.live e he) (h5.named.link e he) (Or.inl rfl)
          apply allocates_bind (hostMoves_onKernel (moves_modify hset))
          intro _ g6 h6
          apply allocates_bind (hpage h6.named)
          intro r g7 h7
          cases r with
          | none =>
              apply allocates_bind (hdecref p h7.named)
              exact fun _ g8 h8 => allocates_error h8.named _
          | some a =>
              apply allocates_bind (hostMoves_keeps (MemOnly.pageIncref a) h7.named)
              intro _ g8 h8
              apply allocates_bind (hostMoves_keeps (MemOnly.KADDR _) h8.named)
              intro kva g9 h9
              apply allocates_bind (hostMoves_setInfo h9.named _)
              intro _ g10 h10
              apply allocates_bind (hpage h10.named)
              intro r g11 h11
              cases r with
              | none =>
                  apply allocates_bind (hdecref p h11.named)
                  intro _ g12 h12
                  apply allocates_bind (hdecref a h12.named)
                  exact fun _ g13 h13 => allocates_error h13.named _
              | some b =>
                  apply allocates_bind (hostMoves_keeps (MemOnly.pageIncref b) h11.named)
                  intro _ g12 h12
                  apply allocates_bind (hostMoves_keeps (MemOnly.KADDR _) h12.named)
                  intro kva' g13 h13
                  apply allocates_bind (hostMoves_setInfo h13.named _)
                  intro _ g14 h14
                  obtain ⟨h15, hk⟩ := h14.named.allocate he (E := { g14.kernel.envs e with
                    envId := nextEnvId e (g14.kernel.envs e).envId
                    envParentId := parentId
                    envType := .ENV_TYPE_GUEST
                    envStatus := .ENV_RUNNABLE
                    envRuns := 0
                    envTf := {}
                    envPgfaultUpcall := 0
                    envIpcRecving := false }) rfl rfl rfl
                  apply mayEnd_of_eq rfl |>.mpr
                  use h15
                  rintro e' hee
                  obtain rfl : e = e' := Except.ok.inj hee
                  exact hk

theorem hostMoves_makeguest {cur : Nat} (h : Named g.kernel) (hcur : g.kernel.curenv = some cur)
    (physicalsz entryloc : Word) :
  HostMoves (sysEnvMakeguest physicalsz entryloc) g
  := by
  have heq : onKernel curenv g = .ok (cur, g) := by
    rw [onKernel, curenv_eq hcur]
  rw [sysEnvMakeguest, HostMoves, mayEnd_of_bind_eq heq, mayEnd_bind, mayEnd_get, mayEnd_bind]
  apply (allocates_envGuestAlloc h _).mono _ (fun _ h' => h')
  rintro r g1 ⟨h1, hknown⟩
  cases r with
  | error x => exact mayEnd_pure _ |>.mpr h1
  | ok e =>
      have hk := hknown e rfl
      have hrest : HostMoves (do
          onKernel (modify (fun s => s.setEnv e { s.envs e with envStatus := .ENV_NOT_RUNNABLE }))
          modify (fun g => g.setInfo e { g.extrainfo e with physicalsz := physicalsz })
          onKernel (modify (fun s => s.setEnv e { s.envs e with
            envTf := { (s.envs e).envTf with tfEip := entryloc } }))
          let g ← get
          pure (g.kernel.envs e).envId : Prog Host Word) g1 := by
        apply hostMoves_bind (hostMoves_onKernel (moves_update h1.named hk rfl rfl rfl))
        intro _ g2 h2
        apply hostMoves_bind (hostMoves_setInfo h2.named _)
        intro _ g3 h3
        apply hostMoves_bind (hostMoves_onKernel
          (moves_update h3.named (h3.known (h2.known hk)) rfl rfl rfl))
        intro _ g4 h4
        exact mayEnd_of_eq rfl |>.mpr (Moved.refl h4.named)
      exact hrest.mono (fun _ _ h' => h1.trans h') (fun _ h' => h1.trans h')

/-! ### Messages -/

/-- The receiver is told an identifier that was given out. -/
theorem ipcReceived_moved (h : Named s) (hk : Known s e) (value : Word) :
  (ipcReceived e value).MayEnd s (fun _ s' => Moved s s' ∧ Issued (s'.envs e).envIpcFrom) (Moved s)
  := by
  rw [ipcReceived]
  cases hcur : s.curenv with
  | none =>
      have hfault : (curenv : Prog Kernel Nat) s = .error (.fault 0) := by
        rw [curenv, get_bind, hcur]
        rfl
      rw [mayEnd_bind]
      exact mayEnd_intro (fun _ _ hno => by rw [hfault] at hno; cases hno)
        (fun _ hno => by rw [hfault] at hno; cases hno)
  | some cur =>
      have hissued := (h.current cur hcur).issued
      rw [mayEnd_of_bind_eq (curenv_eq hcur), mayEnd_bind, mayEnd_modify, mayEnd_pure]
      constructor
      · exact h.setEnv hk.lt (Or.inl rfl) (fun _ => hk.issued) (h.link e hk.lt) (Or.inr hissued)
      · rw [s.setEnv_envs_self]
        exact hissued

/-- From `s` to `s'` the environment `e` was told an identifier that was given out, unless the send
was refused with `r`, and `P` is the case then. -/
def Told (e : Nat) (P : Prop) (s : Kernel) (r : Word) (s' : Kernel) : Prop :=
  Moved s s' ∧ (r = 0 → Issued (s'.envs e).envIpcFrom ∧ P)

section Told

variable {P : Prop}

theorem told_refused {r : Word} (h : Named s) (hr : r ≠ 0) :
  (pure r : Prog Kernel Word).MayEnd s (Told e P s) (Moved s)
  := mayEnd_pure r |>.mpr ⟨Moved.refl h, fun hno => (hr hno).elim⟩

theorem told_bind {m : Prog Kernel α} {f : α → Prog Kernel Word} (hm : Moves m s)
    (hf : ∀ a s', Moved s s' → (f a).MayEnd s' (Told e P s') (Moved s')) :
  (m >>= f).MayEnd s (Told e P s) (Moved s)
  := by
  rw [mayEnd_bind]
  apply hm.mono
  · intro a s' hmoved
    apply (hf a s' hmoved).mono
    · exact fun _ _ h' => ⟨hmoved.trans h'.1, h'.2⟩
    · exact fun _ h' => hmoved.trans h'
  · exact fun _ hmoved => hmoved

theorem setIpcPerm_told (h : Named s) (hk : Known s e) (hP : P) (value perm : Word) :
  (do setIpcPerm e perm; ipcReceived e value : Prog Kernel Word).MayEnd s (Told e P s) (Moved s)
  := by
  apply told_bind (moves_update h hk rfl rfl rfl)
  intro _ s1 h1
  apply (ipcReceived_moved h1.named (h1.known hk) value).mono _ (fun _ h' => h')
  exact fun _ _ h' => ⟨h'.1, fun _ => ⟨h'.2, hP⟩⟩

theorem ipcSendPage_told (h : Named s) (hk : Known s e) (hP : P) (value perm : Word)
    (temppg : Nat) :
  (ipcSendPage e value perm temppg).MayEnd s (Told e P s) (Moved s)
  := by
  rw [ipcSendPage, mayEnd_bind, mayEnd_get, mayEnd_ite]
  constructor
  · intro _
    apply told_bind (moves_of_keeps (MemOnly.envPgdirOf e) h)
    intro pgdir s1 h1
    apply told_bind (moves_of_keeps (MemOnly.pageInsert _ _ _ _) h1.named)
    intro x s2 h2
    rw [mayEnd_ite]
    constructor
    · exact fun _ => told_refused h2.named (by decide)
    · exact fun _ => setIpcPerm_told h2.named (h2.known (h1.known hk)) hP value perm
  · exact fun _ => setIpcPerm_told h hk hP value 0

end Told

/-- A send that is not refused tells its receiver an identifier that was given out, and a page goes
with permissions that a system call may use. -/
theorem sysIpcTrySend_told {cur : Nat} (h : Named s) (hcur : s.curenv = some cur)
    {envid value srcva perm : Word} (hfind : s.findEnv cur envid false = some e) :
  (sysIpcTrySend envid value srcva perm).MayEnd s
    (Told e (srcva.toNat < UTOP → perm &&& ~~~ PTE_SYSCALL = 0) s) (Moved s)
  := by
  have hk := h.found hcur hfind
  rw [sysIpcTrySend, mayEnd_of_bind_eq (envid2env_eq hcur envid false), hfind]
  simp only
  rw [mayEnd_bind, mayEnd_get, mayEnd_ite]
  refine ⟨fun _ => told_refused h (by decide), fun _ => ?_⟩
  rw [mayEnd_ite]
  constructor
  · intro hva
    rw [mayEnd_ite]
    refine ⟨fun _ => told_refused h (by decide), fun _ => ?_⟩
    rw [mayEnd_ite]
    refine ⟨fun _ => told_refused h (by decide), fun _ => ?_⟩
    rw [mayEnd_ite]
    refine ⟨fun _ => told_refused h (by decide), fun hperm => ?_⟩
    apply told_bind (moves_of_keeps MemOnly.curPgdir h)
    intro pgdir s1 h1
    apply told_bind (moves_of_keeps (MemOnly.pageLookup _ _) h1.named)
    intro r s2 h2
    cases r with
    | none => exact told_refused h2.named (by decide)
    | some found =>
        simp only
        rw [mayEnd_bind, mayEnd_get, mayEnd_ite]
        constructor
        · exact fun _ => told_refused h2.named (by decide)
        · intro _
          apply ipcSendPage_told h2.named (h2.known (h1.known hk))
          exact fun _ => not_not.mp hperm
  · intro hva
    exact setIpcPerm_told h hk (fun hlt => (hva hlt).elim) value 0

/-! ### System calls -/

section Calls

variable {cur : Nat} (h : Named s) (hcur : s.curenv = some cur)
include h hcur

theorem moves_sysIpcTrySend (envid value srcva perm : Word) :
  Moves (sysIpcTrySend envid value srcva perm) s
  := by
  cases hfind : s.findEnv cur envid false with
  | none =>
      apply moves_bind_of_eq (envid2env_eq hcur envid false)
      rw [hfind]
      exact moves_pure h _
  | some e => exact (sysIpcTrySend_told h hcur hfind).mono (fun _ _ h' => h'.1) (fun _ h' => h')

theorem moves_sysIpcRecv (dstva : Word) :
  Moves (sysIpcRecv dstva) s
  := by
  have hk := h.current cur hcur
  apply moves_bind_of_eq (curenv_eq hcur)
  apply moves_ite
  · exact fun _ => moves_pure h _
  · intro _
    apply moves_bind (moves_update h hk rfl rfl rfl)
    intro _ s1 h1
    apply moves_bind (moves_update h1.named (h1.known hk) rfl rfl rfl)
    intro _ s2 h2
    apply moves_bind (moves_schedYield h2.named)
    exact fun _ s3 h3 => moves_pure h3.named _

/-- A system call that changes the environment it finds. -/
theorem moves_found {envid : Word} {f : Option Nat → Prog Kernel Word} (checkperm : Bool)
    (hnone : Moves (f none) s) (hf : ∀ e, Known s e → Moves (f (some e)) s) :
  Moves (envid2env envid checkperm >>= f) s
  := by
  apply moves_bind_of_eq (envid2env_eq hcur envid checkperm)
  cases hfind : s.findEnv cur envid checkperm with
  | none => exact hnone
  | some e => exact hf e (h.found hcur hfind)

theorem moves_sysExofork :
  Moves sysExofork s
  := by
  apply moves_bind_of_eq (curenv_eq hcur)
  apply moves_get_bind
  rw [Moves, mayEnd_bind]
  apply (envAlloc_moved h _).mono _ (fun _ h' => h')
  rintro r s1 ⟨h1, hknown⟩
  cases r with
  | error x => exact mayEnd_pure _ |>.mpr h1
  | ok e =>
      have hk := hknown e rfl
      have hrest : Moves (do
          modify (fun s => s.setEnv e { s.envs e with envStatus := .ENV_NOT_RUNNABLE })
          modify (fun s =>
            let tf := (s.envs cur).envTf
            s.setEnv e { s.envs e with
              envTf := { tf with tfRegs := { tf.tfRegs with regEax := 0 } } })
          let s ← get
          pure (s.envs e).envId : Prog Kernel Word) s1 := by
        apply moves_bind (moves_update h1.named hk rfl rfl rfl)
        intro _ s2 h2
        have hset : Moved s2 (s2.setEnv e { s2.envs e with
            envTf := { (s2.envs cur).envTf with
              tfRegs := { (s2.envs cur).envTf.tfRegs with regEax := 0 } } }) :=
          h2.named.update (h2.known hk) rfl rfl rfl
        apply moves_bind (moves_modify hset)
        intro _ s3 h3
        exact moves_get_bind (moves_pure h3.named _)
      exact hrest.mono (fun _ _ h' => h1.trans h') (fun _ h' => h1.trans h')

theorem moves_sysEnvSetStatus (envid status : Word) :
  Moves (sysEnvSetStatus envid status) s
  := by
  rw [sysEnvSetStatus]
  split
  · apply moves_found h hcur true (moves_pure h _)
    intro e hk
    apply moves_bind (moves_update h hk rfl rfl rfl)
    exact fun _ s1 h1 => moves_pure h1.named _
  · exact moves_pure h _

omit hcur in
theorem moves_sysEnvcreate (binary : Program → Binary) :
  Moves (sysEnvcreate binary) s
  := by
  rw [sysEnvcreate]
  apply moves_bind (moves_envCreate h _ _)
  exact fun _ s1 h1 => moves_pure h1.named _

theorem moves_sysEnvreplace (binary : Program → Binary) (x args argc : Word) :
  Moves (sysEnvreplace binary x args argc) s
  := by
  rw [sysEnvreplace]
  split
  · apply moves_bind (moves_envReplace h hcur _ _ _ _)
    exact fun _ s1 h1 => moves_pure h1.named _
  · exact moves_pure h _

end Calls

section Traps

variable {cur : Nat} {binary : Program → Binary} (h : Named g.kernel)
  (hcur : g.kernel.curenv = some cur)
include h hcur

/-- No system call takes an identifier away. -/
theorem hostMoves_handler (sys : Syscall) (a1 a2 a3 a4 a5 : Word) :
  HostMoves (sys.handler binary a1 a2 a3 a4 a5) g
  := by
  have hk := h.current cur hcur
  have hzero : ∀ {m : Prog Kernel Unit}, Moves m g.kernel →
      HostMoves (onKernel (do m; pure (0 : Word))) g := by
    intro m hm
    apply hostMoves_onKernel (moves_bind hm _)
    exact fun _ s1 h1 => moves_pure h1.named _
  cases sys with
  | SYS_cputs =>
      apply hzero
      apply moves_bind_of_eq (curenv_eq hcur)
      apply moves_bind (moves_userMemAssert h hk _ _ _)
      exact fun _ s1 h1 => moves_of_keeps (MemOnly.cprintfString _ _) h1.named
  | SYS_cgetc => exact hostMoves_keeps MemOnly.consGetc h
  | SYS_getenvid =>
      apply hostMoves_onKernel
      apply moves_bind_of_eq (curenv_eq hcur)
      exact moves_get_bind (moves_pure h _)
  | SYS_env_destroy =>
      apply hostMoves_onKernel
      apply moves_found h hcur true (moves_pure h _)
      intro e hk'
      apply moves_bind (moves_envDestroy h hk')
      exact fun _ s1 h1 => moves_pure h1.named _
  | SYS_page_alloc => exact hostMoves_keeps (MemOnly.sysPageAlloc _ _ _) h
  | SYS_page_map => exact hostMoves_keeps (MemOnly.sysPageMap _ _ _ _ _) h
  | SYS_page_unmap => exact hostMoves_keeps (MemOnly.sysPageUnmap _ _) h
  | SYS_exofork => exact hostMoves_onKernel (moves_sysExofork h hcur)
  | SYS_env_set_status => exact hostMoves_onKernel (moves_sysEnvSetStatus h hcur _ _)
  | SYS_env_set_pgfault_upcall =>
      apply hostMoves_onKernel
      apply moves_found h hcur true (moves_pure h _)
      intro e hk'
      apply moves_bind (moves_update h hk' rfl rfl rfl)
      exact fun _ s1 h1 => moves_pure h1.named _
  | SYS_yield =>
      have hyield : Moves sysYield g.kernel := moves_schedYield h
      rw [Syscall.handler]
      exact hzero hyield
  | SYS_ipc_try_send => exact hostMoves_onKernel (moves_sysIpcTrySend h hcur _ _ _ _)
  | SYS_ipc_recv => exact hostMoves_onKernel (moves_sysIpcRecv h hcur _)
  | SYS_envcreate => exact hostMoves_onKernel (moves_sysEnvcreate h binary)
  | SYS_envreplace => exact hostMoves_onKernel (moves_sysEnvreplace h hcur _ _ _ _)
  | SYS_envmakeguest => exact hostMoves_makeguest h hcur _ _

theorem moves_pageFaultHandler (dir : Nat) (faultVa : Word) :
  Moves (pageFaultHandler dir faultVa) g.kernel
  := by
  have hk := h.current cur hcur
  apply moves_bind_of_eq (curenv_eq hcur)
  apply moves_get_bind
  apply moves_ite
  · exact fun _ => moves_panic _
  intro _
  apply moves_ite
  · intro _
    apply moves_bind (moves_userMemAssert h hk _ _ _)
    intro _ s1 h1
    apply moves_bind (moves_of_keeps (MemOnly.kernStoreWords _ _ _) h1.named)
    intro _ s2 h2
    apply moves_bind (moves_update h2.named (h2.known (h1.known hk)) rfl rfl rfl)
    intro _ s3 h3
    exact moves_envRun h3.named (h3.known (h2.known (h1.known hk)))
  · exact fun _ => moves_envDestroy h hk

/-- No trap takes an identifier away. -/
theorem hostMoves_trapDispatch (dir : Nat) (faultVa : Word) :
  HostMoves (trapDispatch binary dir faultVa cur) g
  := by
  have hk := h.current cur hcur
  rw [trapDispatch, HostMoves, mayEnd_bind, mayEnd_get, mayEnd_ite]
  refine ⟨fun _ => hostMoves_onKernel (moves_pageFaultHandler h hcur dir faultVa), fun _ => ?_⟩
  rw [mayEnd_ite]
  refine ⟨fun _ => hostMoves_onKernel (moves_panic _), fun _ => ?_⟩
  rw [mayEnd_ite]
  constructor
  · intro _
    have hsyscall : HostMoves (syscall binary (g.kernel.envs cur).envTf.tfRegs.regEax
        (g.kernel.envs cur).envTf.tfRegs.regEdx (g.kernel.envs cur).envTf.tfRegs.regEcx
        (g.kernel.envs cur).envTf.tfRegs.regEbx (g.kernel.envs cur).envTf.tfRegs.regEdi
        (g.kernel.envs cur).envTf.tfRegs.regEsi) g := by
      rw [syscall]
      split
      · exact hostMoves_handler h hcur _ _ _ _ _ _
      · exact hostMoves_pure h _
    apply hostMoves_bind hsyscall
    intro r g1 h1
    exact hostMoves_onKernel (moves_update h1.named (h1.known hk) rfl rfl rfl)
  intro _
  rw [mayEnd_ite]
  refine ⟨fun _ => hostMoves_keeps MemOnly.kbdIntr h, fun _ => ?_⟩
  rw [mayEnd_ite]
  refine ⟨fun _ => hostMoves_pure h _, fun _ => ?_⟩
  rw [mayEnd_ite]
  constructor
  · intro _
    apply hostMoves_onKernel
    apply moves_bind (moves_of_keeps MemOnly.lapicEoi h)
    exact fun _ s1 h1 => moves_schedYield h1.named
  intro _
  rw [mayEnd_ite]
  refine ⟨fun _ => mayEnd_panic _, fun _ => ?_⟩
  exact hostMoves_onKernel (moves_envDestroy h hk)

end Traps

theorem moves_afterTrap (h : Named s) :
  Moves afterTrap s
  := afterTrap_resumed.mono (fun _ _ hno => hno.elim) (fun _ hr => h.resumed hr)

/-- A trap is dispatched, and some environment goes on. -/
theorem hostMoves_dispatched {binary : Program → Binary} {cur : Nat} (h : Named g.kernel)
    (hcur : g.kernel.curenv = some cur) (dir : Nat) (faultVa : Word) :
  HostMoves (do
    trapDispatch binary dir faultVa cur
    onKernel afterTrap) g
  := by
  apply hostMoves_bind (hostMoves_trapDispatch h hcur dir faultVa)
  exact fun _ g1 h1 => hostMoves_onKernel (moves_afterTrap h1.named)

theorem hostMoves_trap {binary : Program → Binary} (h : Named g.kernel) (dir : Nat)
    (faultVa : Word) (tf : Trapframe) :
  HostMoves (trap binary dir faultVa tf) g
  := by
  rw [trap, HostMoves, mayEnd_bind, mayEnd_get]
  cases hcur : g.kernel.curenv with
  | none => exact mayEnd_panic _
  | some cur =>
      have hk := h.current cur hcur
      simp only
      rw [mayEnd_ite]
      constructor
      · intro _
        apply hostMoves_onKernel
        apply moves_bind (moves_envFree h hk)
        intro _ s1 h1
        apply moves_bind (moves_modify (h1.named.setCurenv (fun e hno => by cases hno)))
        exact fun _ s2 h2 => moves_schedYield h2.named
      · intro _
        have hsaved : onKernel (setTf cur tf) g = .ok ((), { g with
            kernel := g.kernel.setEnv cur { g.kernel.envs cur with envTf := tf } }) := rfl
        have h1 : Moved g.kernel (g.kernel.setEnv cur { g.kernel.envs cur with envTf := tf }) :=
          h.update hk rfl rfl rfl
        rw [mayEnd_of_bind_eq hsaved]
        apply (hostMoves_dispatched (g := { g with
          kernel := g.kernel.setEnv cur { g.kernel.envs cur with envTf := tf } }) h1.named hcur dir
          faultVa).mono
        · exact fun _ _ h' => h1.trans h'
        · exact fun _ h' => h1.trans h'

/-! ### Runs -/

/-- Each processor waits or runs an environment that has an identifier. -/
structure Machine.Named (m : Machine) : Prop where
  kernel : Root.Named m.kernel
  cpu : ∀ c e, m.cpuEnv c = some e → Known m.kernel e

section Runs

variable {binary : Program → Binary} {m m' : Machine} {c : Nat}

/-- The kernel is entered on a processor. -/
theorem Machine.Named.on (h : m.Named) (c : Nat) :
  Moved m.kernel (m.on c).kernel
  := h.kernel.setCurenv (h.cpu c)

/-- A processor leaves the kernel. -/
theorem Machine.Named.left (h : m.Named) {g : Host} (hg : Moved m.kernel g.kernel) (dir : Nat) :
  (m.left c g dir).Named
  := by
  constructor
  case kernel => exact hg.named
  case cpu =>
    intro c' e he
    simp only [Machine.left] at he
    by_cases hcc : c' = c
    · rw [hcc, Function.update_self] at he
      exact hg.named.current e he
    · rw [Function.update_of_ne hcc] at he
      exact hg.known (h.cpu c' e he)

/-- Changes that leave the environments alone. -/
theorem Machine.Named.withKernel (h : m.Named) (hs : MemOnly m.kernel s') :
  Moved m.kernel s' ∧ (m.withKernel s').Named
  := by
  have hmoved := h.kernel.memOnly hs
  exact ⟨hmoved, hmoved.named, fun c e he => hmoved.known (h.cpu c e he)⟩

/-- No step of the machine takes an identifier away. -/
theorem Machine.Named.step (h : m.Named) {ev : Event} (hstep : Step binary m c ev m') :
  Moved m.kernel m'.kernel ∧ m'.Named
  := by
  have hon := h.on c
  cases hstep with
  | run _ _ hst =>
      apply h.withKernel
      rw [hst.quiet]
      exact ⟨rfl, rfl, rfl⟩
  | @trap cur faultVa tf g dir _ _ _ htrap _ =>
      have hmoved := hon.trans ((hostMoves_trap hon.named _ faultVa tf).of_leave htrap)
      exact ⟨hmoved, h.left hmoved dir⟩
  | @idle s' dir _ hyield _ =>
      have hmoved := hon.trans ((moves_schedYield hon.named).of_leave hyield)
      exact ⟨hmoved, h.left (g := { m.host with kernel := s' }) hmoved dir⟩
  | input => exact h.withKernel ⟨rfl, rfl, rfl⟩

/-- What `env_init` leaves behind. -/
theorem named_of_init (hcur : s.curenv = none) (hinit : envInit s = .ok ((), s')) :
  Root.Named s'
  := by
  obtain ⟨s1, heq, ⟨envs, hs1⟩, hfree⟩ := envInit_ok s
  obtain rfl : s1 = s' := (Prod.mk.inj (Except.ok.inj (heq.symm.trans hinit))).2
  constructor
  case id => exact fun e he => Or.inl (hfree e he).2.1
  case live => exact fun e he hlive => (hlive (hfree e he).1).elim
  case link =>
    intro e he e' hlink
    rw [(hfree e he).2.2] at hlink
    split at hlink
    case isTrue hlt =>
      obtain rfl := Option.some.inj hlink
      exact hlt
    case isFalse => cases hlink
  case head =>
    intro e hhead
    rw [hs1] at hhead
    obtain rfl := Option.some.inj hhead
    decide
  case current =>
    intro e he
    rw [hs1] at he
    rw [show s.curenv = some e from he] at hcur
    cases hcur

theorem Booted.named (h : Booted m) :
  m.Named
  := by
  induction h with
  | init hboot hinit => exact ⟨named_of_init hboot.curenv hinit, fun c e hno => by cases hno⟩
  | create _ _ heq ih =>
      have hmoved := (moves_envCreate ih.kernel _ _).of_eq heq
      exact ⟨hmoved.named, fun c e he => hmoved.known (ih.cpu c e he)⟩

end Runs

end Root

end Jos
