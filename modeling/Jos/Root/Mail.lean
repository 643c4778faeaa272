import Jos.Root.First
import Jos.Root.Named

/-!
# What `ipc_recv` reports

`ipc_recv` of `lib/ipc.c` gets a message through fields of the record of its environment.
`sys_ipc_recv` waits, `sys_ipc_try_send` of another environment fills the fields in, and after the
system call has returned they are read in user mode, one by one.

The runs of this module are those of the machine, with any number of processors and environments
and any system calls in any order.  Beside the machine they remember the messages sent to each
environment, what its calls of `ipc_recv` have reported, and how far it has come in `ipc_recv`.
-/

namespace Jos

namespace Root

open Bytes Prog

variable {s s' : Kernel} {cur e : Nat}

/-! ### Messages and reports -/

/-- A message that was sent, and whether a page was mapped in the receiver with it. -/
structure Sent where
  value : Word
  sender : Word
  perm : Word
  mapped : Bool
  deriving DecidableEq

/-- What a call of `ipc_recv` reports: the value it returns, and what it stores in
`*from_env_store` and `*perm_store`. -/
structure Received where
  value : Word
  fromEnv : Word
  perm : Word
  deriving DecidableEq

/-- What is reported is what was sent: the value, who sent it, and the permissions of the page,
which are none if and only if there is no page. -/
structure Reports (r : Received) (l : Sent) : Prop where
  value : r.value = l.value
  fromEnv : r.fromEnv = l.sender
  perm : l.mapped = true → r.perm = l.perm
  page : r.perm ≠ 0 ↔ l.mapped = true

/-! ### `ipc_recv` -/

/-- What `ipc_recv` passes to `sys_ipc_recv` for `pg`. -/
def recvVa (pg : Word) : Word :=
  if pg = 0 then BitVec.ofNat 32 KERNBASE else pg

/-- What is stored in `*from_env_store`. -/
def fromEnvStore (thisenv : Env) : Word :=
  thisenv.envIpcFrom

/-- What is stored in `*perm_store`. The source reads `env_ipc_from` here too. -/
def permStore (thisenv : Env) : Word :=
  thisenv.envIpcFrom

/-- What `ipc_recv` returns when its system call has returned `0`. -/
def returnedValue (thisenv : Env) : Word :=
  thisenv.envIpcValue

/-- How far an environment has come in `ipc_recv`, with the messages that were sent to it before it
began to read. -/
inductive RecvPc where
  /-- It is not in `ipc_recv`. -/
  | outside
  /-- It has called `sys_ipc_recv`. -/
  | waiting
  /-- It has stored who sent the message. -/
  | gotFrom (fromEnv : Word) (sent : List Sent)
  /-- It has stored the permissions too. -/
  | gotPerm (fromEnv perm : Word) (sent : List Sent)

/-- A call of `ipc_recv` that has returned: its report, and the messages sent before it began to
read. -/
structure Receipt where
  told : Received
  sent : List Sent

/-! ### Runs -/

/-- The value that a system call returns, if it returns. -/
def returns (m : Prog Kernel Word) (s : Kernel) : Option Word :=
  match m s with
  | .ok (r, _) => some r
  | .error _ => none

/-- The environment that traps and the kernel in which its registers are saved. -/
def entering (m : Machine) (c : Nat) (ev : Event) : Option (Nat × Kernel) :=
  match ev, m.cpuEnv c with
  | .trap tf, some cur =>
      if (m.kernel.envs cur).envStatus = .ENV_DYING then none
      else some (cur, entered (m.on c).kernel cur tf)
  | _, _ => none

/-- The system call that an environment asks for. -/
def asked (s : Kernel) (cur : Nat) : Option Syscall :=
  if (s.envs cur).envTf.tfTrapno = T_SYSCALL then
    Syscall.ofWord (s.envs cur).envTf.tfRegs.regEax
  else
    none

/-- The messages that a step of the processor `c` sends to the environment `e`: one, if
`sys_ipc_try_send` finds `e` and returns `0`. -/
def sending (m : Machine) (c : Nat) (ev : Event) (e : Nat) : List Sent :=
  match entering m c ev with
  | some (cur, s) =>
      if asked s cur = some .SYS_ipc_try_send ∧ s.findEnv cur (arg1 s cur) false = some e
          ∧ returns (sysIpcTrySend (arg1 s cur) (arg2 s cur) (arg3 s cur) (arg4 s cur)) s
            = some 0 then
        [{ value := arg2 s cur
           sender := (s.envs cur).envId
           perm := arg4 s cur
           mapped := decide ((arg3 s cur).toNat < UTOP ∧ (s.envs e).envIpcDstva.toNat < UTOP) }]
      else
        []
  | none => []

/-- Whether a step of the processor `c` is a call of `sys_ipc_recv` by the environment `e` that is
not refused. -/
def receiving (m : Machine) (c : Nat) (ev : Event) (e : Nat) : Bool :=
  match entering m c ev with
  | some (cur, s) => cur = e ∧ asked s cur = some .SYS_ipc_recv
      ∧ returns (sysIpcRecv (arg1 s cur)) s = none
  | none => false

/-- The machine with what is remembered of messages. -/
structure Mail where
  machine : Machine
  sent : Nat → List Sent := fun _ => []
  got : Nat → List Receipt := fun _ => []
  pc : Nat → RecvPc := fun _ => .outside

namespace Mail

variable {m m' : Mail}

/-- Whether the slot `e` is taken by a new environment. -/
def Created (m : Mail) (machine' : Machine) (e : Nat) : Prop :=
  (m.machine.kernel.envs e).envStatus = .ENV_FREE ∧ (machine'.kernel.envs e).envStatus ≠ .ENV_FREE

instance (m : Mail) (machine' : Machine) (e : Nat) : Decidable (m.Created machine' e) :=
  inferInstanceAs (Decidable (_ ∧ _))

/-- What is remembered after a step of the processor `c`. Nothing is remembered about an
environment that was created. -/
def after (m : Mail) (c : Nat) (ev : Event) (machine' : Machine) : Mail where
  machine := machine'
  sent e := if m.Created machine' e then [] else m.sent e ++ sending m.machine c ev e
  got e := if m.Created machine' e then [] else m.got e
  pc e :=
    if m.Created machine' e then .outside
    else if receiving m.machine c ev e then .waiting
    else m.pc e

/-- A step of the machine that meets the condition `ok`, or of an environment that runs on the
processor `c` in `ipc_recv`. -/
inductive Step (binary : Program → Binary) (ok : Machine → Nat → Event → Prop) (m : Mail) : Mail → Prop
  | turn {c : Nat} {ev : Event} {machine' : Machine} (hok : ok m.machine c ev)
    (hstep : Root.Step binary m.machine c ev machine') : Step binary ok m (m.after c ev machine')
  | storeFrom {c cur : Nat} (hcur : m.machine.cpuEnv c = some cur) (hpc : m.pc cur = .waiting) :
    Step binary ok m { m with
      pc := Function.update m.pc cur
        (.gotFrom (fromEnvStore (m.machine.kernel.envs cur)) (m.sent cur)) }
  | storePerm {c cur : Nat} {fromEnv : Word} {sent : List Sent}
    (hcur : m.machine.cpuEnv c = some cur) (hpc : m.pc cur = .gotFrom fromEnv sent) :
    Step binary ok m { m with
      pc := Function.update m.pc cur
        (.gotPerm fromEnv (permStore (m.machine.kernel.envs cur)) sent) }
  | returned {c cur : Nat} {fromEnv perm : Word} {sent : List Sent}
    (hcur : m.machine.cpuEnv c = some cur) (hpc : m.pc cur = .gotPerm fromEnv perm sent) :
    Step binary ok m { m with
      got := Function.update m.got cur (m.got cur ++
        [{ told := { value := returnedValue (m.machine.kernel.envs cur)
                     fromEnv := fromEnv
                     perm := perm }
           sent := sent }])
      pc := Function.update m.pc cur .outside }

/-- The runs of the machine from boot on whose steps meet the condition `ok`. -/
inductive Run (binary : Program → Binary) (ok : Machine → Nat → Event → Prop) : Mail → Prop
  | boot {machine : Machine} (hm : Booted machine) : Run binary ok { machine := machine }
  | step {m m' : Mail} (hm : Run binary ok m) (hstep : m.Step binary ok m') : Run binary ok m'

/-- The calls of `ipc_recv` of the environment `e` have reported the messages sent to it one after
the other. -/
def Exact (m : Mail) (e : Nat) : Prop :=
  ∀ (i : Nat) (r : Receipt), (m.got e)[i]? = some r → ∃ l, r.sent[i]? = some l ∧ Reports r.told l

/-! ### What is remembered -/

/-- A message names its sender, and the permissions of a page are those that a system call may
use. -/
structure Proper (l : Sent) : Prop where
  sender : Issued l.sender
  perm : l.mapped = true → l.perm &&& ~~~ PTE_SYSCALL = 0

/-- What an environment in `ipc_recv` has stored. -/
def Stored (env : Env) : RecvPc → Prop
  | .outside => True
  | .waiting => True
  | .gotFrom _ sent => (∀ l ∈ sent, Proper l) ∧ (sent ≠ [] → Issued env.envIpcFrom)
  | .gotPerm _ perm sent => (∀ l ∈ sent, Proper l) ∧ (sent ≠ [] → Issued perm)

/-- What holds in every run of what is remembered. -/
structure Inv (m : Mail) : Prop where
  named : m.machine.Named
  sent : ∀ e, ∀ l ∈ m.sent e, Proper l
  told : ∀ e < NENV, m.sent e ≠ [] → Issued (m.machine.kernel.envs e).envIpcFrom
  pc : ∀ e < NENV, Stored (m.machine.kernel.envs e) (m.pc e)
  got : ∀ e, ∀ r : Receipt, r ∈ m.got e →
    (∀ l ∈ r.sent, Proper l) ∧ (r.sent ≠ [] → Issued r.told.perm)

/-- Permissions that a system call may use are no identifier. -/
theorem Proper.not_issued {l : Sent} (h : Proper l) (hmapped : l.mapped = true) :
  ¬ Issued l.perm
  := by
  intro hissued
  have hle := hissued.le
  have hlt := perm_lt (h.perm hmapped)
  omega

/-- An identifier among the permissions is no report of any message. -/
theorem not_reports {r : Received} {l : Sent} (hl : Proper l) (hr : Issued r.perm) :
  ¬ Reports r l
  := by
  intro h
  have hne : r.perm ≠ 0 := by
    intro hzero
    have hle := hr.le
    rw [hzero] at hle
    simp at hle
  have hmapped := h.page.mp hne
  rw [h.perm hmapped] at hr
  exact hl.not_issued hmapped hr

/-- What an environment has stored stays proper when no message loses its sender. -/
theorem Stored.mono {env env' : Env} {pc : RecvPc} (h : Stored env pc)
    (hfrom : Issued env.envIpcFrom → Issued env'.envIpcFrom) :
  Stored env' pc
  := by
  cases pc with
  | outside => trivial
  | waiting => trivial
  | gotFrom fromEnv sent => exact ⟨h.1, fun hne => hfrom (h.2 hne)⟩
  | gotPerm fromEnv perm sent => exact h

/-! ### Sends -/

section Sends

variable {M M' : Machine} {binary : Program → Binary} {c : Nat} {ev : Event}

/-- An environment that enters the kernel has asked for what its registers say. -/
theorem entering_eq (h : entering M c ev = some (cur, s)) :
  ∃ tf, ev = .trap tf ∧ M.cpuEnv c = some cur ∧ (M.kernel.envs cur).envStatus ≠ .ENV_DYING
    ∧ s = entered (M.on c).kernel cur tf
  := by
  unfold entering at h
  split at h
  case h_1 tf cur' heq =>
    split at h
    case isTrue => cases h
    case isFalse hst =>
      obtain ⟨rfl, rfl⟩ := Prod.mk.inj (Option.some.inj h)
      exact ⟨tf, rfl, heq, hst, rfl⟩
  case h_2 => cases h

theorem asks_of_asked {sys : Syscall} (h : asked s cur = some sys) :
  Asks s cur sys
  := by
  unfold asked at h
  split at h
  case isTrue htrap => exact ⟨htrap, h⟩
  case isFalse => cases h

/-- The one message that a step may send. -/
structure Sends (cur e : Nat) (s : Kernel) (l : Sent) : Prop where
  asks : Asks s cur .SYS_ipc_try_send
  found : s.findEnv cur (arg1 s cur) false = some e
  returned : ∃ s', sysIpcTrySend (arg1 s cur) (arg2 s cur) (arg3 s cur) (arg4 s cur) s = .ok (0, s')
  sender : l.sender = (s.envs cur).envId
  perm : l.perm = arg4 s cur
  mapped : l.mapped = true → (arg3 s cur).toNat < UTOP

theorem mem_sending {l : Sent} (h : l ∈ sending M c ev e) :
  ∃ cur s, entering M c ev = some (cur, s) ∧ Sends cur e s l
  := by
  unfold sending at h
  cases hent : entering M c ev with
  | none =>
      rw [hent] at h
      cases h
  | some p =>
      obtain ⟨cur, s⟩ := p
      rw [hent] at h
      simp only at h
      split at h
      case isTrue hsend =>
        obtain ⟨hask, hfind, hret⟩ := hsend
        obtain rfl := List.mem_singleton.mp h
        refine ⟨cur, s, rfl, asks_of_asked hask, hfind, ?_, rfl, rfl, ?_⟩
        · unfold returns at hret
          split at hret
          case h_1 r s' heq =>
            obtain rfl := Option.some.inj hret
            exact ⟨s', heq⟩
          case h_2 => cases hret
        · intro hmapped
          exact (of_decide_eq_true hmapped).1
      case isFalse => cases h

/-- A message names its sender, and the permissions of a page were checked. -/
theorem Sends.proper {l : Sent} (h : Sends cur e s l) (hs : Root.Named s)
    (hcur : s.curenv = some cur) :
  Proper l
  := by
  obtain ⟨s1, heq⟩ := h.returned
  have htold := (sysIpcTrySend_told hs hcur h.found).of_eq heq
  constructor
  · rw [h.sender]
    exact (hs.current cur hcur).issued
  · intro hmapped
    rw [h.perm]
    exact (htold.2 rfl).2 (h.mapped hmapped)

/-- A trap that sends a message tells its receiver an identifier that was given out. -/
theorem Sends.told {l : Sent} {g g' : Host} {dir : Nat} {faultVa : Word} {tf : Trapframe}
    (h : Sends cur e (entered g.kernel cur tf) l) (hg : Root.Named g.kernel)
    (hcur : g.kernel.curenv = some cur) (hst : (g.kernel.envs cur).envStatus ≠ .ENV_DYING)
    (htrap : trap binary dir faultVa tf g = .error (.leave g')) :
  Issued (g'.kernel.envs e).envIpcFrom
  := by
  have hk := hg.current cur hcur
  have hentered := hg.entered hk tf
  obtain ⟨s1, heq⟩ := h.returned
  have htold := (sysIpcTrySend_told hentered.named rfl h.found).of_eq heq
  have hissued := (htold.2 rfl).1
  have hlt := (hentered.named.found rfl h.found).lt
  have hcall : Syscall.handler binary (arg1 (entered g.kernel cur tf) cur)
      (arg2 (entered g.kernel cur tf) cur) (arg3 (entered g.kernel cur tf) cur)
      (arg4 (entered g.kernel cur tf) cur) (arg5 (entered g.kernel cur tf) cur) .SYS_ipc_try_send
      { g with kernel := entered g.kernel cur tf } = .ok (0, { g with kernel := s1 }) := by
    rw [Syscall.handler, onKernel]
    simp only [heq]
  have hdispatch : trapDispatch binary dir faultVa cur { g with kernel := entered g.kernel cur tf }
      = .ok ((), { g with kernel := answered s1 cur 0 }) := by
    rw [trapDispatch_syscall (g := { g with kernel := entered g.kernel cur tf }) dir faultVa h.asks,
      bind_of_eq hcall]
    rfl
  have hanswered : Moved s1 (answered s1 cur 0) :=
    htold.1.named.update (htold.1.known (hentered.known hk)) rfl rfl rfl
  have hafter := (moves_afterTrap hanswered.named).mono (fun _ _ h' => h') (fun _ h' => h')
  rw [trap, get_bind, hcur] at htrap
  simp only at htrap
  rw [if_neg hst, bind_of_eq (setTf_entered hcur tf), bind_of_eq hdispatch] at htrap
  have hmoved := (hostMoves_onKernel (g := { g with kernel := answered s1 cur 0 }) hafter).of_leave
    htrap
  exact hmoved.sender hlt (hanswered.sender hlt hissued)

/-- The messages of a step are proper, and their receiver is told an identifier that was given
out. -/
theorem sending_proper {l : Sent} (hM : M.Named) (hstep : Root.Step binary M c ev M')
    (hl : l ∈ sending M c ev e) :
  Proper l ∧ Issued (M'.kernel.envs e).envIpcFrom
  := by
  obtain ⟨cur, s, hent, hsends⟩ := mem_sending hl
  obtain ⟨tf, rfl, hcpu, hst, rfl⟩ := entering_eq hent
  have hon := hM.on c
  cases hstep with
  | trap _ _ _ htrap _ =>
      have hk := hon.named.current cur hcpu
      exact ⟨hsends.proper (hon.named.entered hk tf).named rfl,
        hsends.told hon.named hcpu hst htrap⟩

end Sends

/-! ### Steps -/

section Steps

variable {binary : Program → Binary} {ok : Machine → Nat → Event → Prop}

/-- A step of the machine keeps what is remembered proper. -/
theorem Inv.after (h : m.Inv) {c : Nat} {ev : Event} {M' : Machine}
    (hstep : Root.Step binary m.machine c ev M') :
  (m.after c ev M').Inv
  := by
  obtain ⟨hmoved, hnamed⟩ := h.named.step hstep
  constructor
  case named => exact hnamed
  case sent =>
    intro e l hl
    by_cases hnew : m.Created M' e
    · simp only [Mail.after, if_pos hnew] at hl
      cases hl
    · simp only [Mail.after, if_neg hnew, List.mem_append] at hl
      obtain hl | hl := hl
      · exact h.sent e l hl
      · exact (sending_proper h.named hstep hl).1
  case told =>
    intro e he hne
    by_cases hnew : m.Created M' e
    · simp only [Mail.after, if_pos hnew] at hne
      exact (hne rfl).elim
    · simp only [Mail.after, if_neg hnew] at hne
      by_cases hsent : m.sent e = []
      · rw [hsent, List.nil_append] at hne
        obtain ⟨l, hl⟩ := List.exists_mem_of_ne_nil _ hne
        exact (sending_proper h.named hstep hl).2
      · exact hmoved.sender he (h.told e he hsent)
  case pc =>
    intro e he
    by_cases hnew : m.Created M' e
    · simp only [Mail.after, if_pos hnew]
      trivial
    · simp only [Mail.after, if_neg hnew]
      split
      · trivial
      · exact (h.pc e he).mono (hmoved.sender he)
  case got =>
    intro e r hr
    by_cases hnew : m.Created M' e
    · simp only [Mail.after, if_pos hnew] at hr
      cases hr
    · simp only [Mail.after, if_neg hnew] at hr
      exact h.got e r hr

/-- A step in `ipc_recv` keeps what is remembered proper if what is stored is. -/
theorem Inv.withPc (h : m.Inv) {cur : Nat} {pc : RecvPc}
    (hpc : Stored (m.machine.kernel.envs cur) pc) :
  Inv { m with pc := Function.update m.pc cur pc }
  := by
  constructor
  case named => exact h.named
  case sent => exact h.sent
  case told => exact h.told
  case pc =>
    intro e he
    simp only
    by_cases hec : e = cur
    · rw [hec, Function.update_self]
      exact hpc
    · rw [Function.update_of_ne hec]
      exact h.pc e he
  case got => exact h.got

/-- A call of `ipc_recv` returns. -/
theorem Inv.withGot (h : m.Inv) {cur : Nat} {r : Receipt}
    (hr : (∀ l ∈ r.sent, Proper l) ∧ (r.sent ≠ [] → Issued r.told.perm)) :
  Inv { m with got := Function.update m.got cur (m.got cur ++ [r]) }
  := by
  constructor
  case named => exact h.named
  case sent => exact h.sent
  case told => exact h.told
  case pc => exact h.pc
  case got =>
    intro e r' hr'
    simp only at hr'
    by_cases hec : e = cur
    · rw [hec, Function.update_self, List.mem_append, List.mem_singleton] at hr'
      obtain hold | rfl := hr'
      · exact h.got cur r' hold
      · exact hr
    · rw [Function.update_of_ne hec] at hr'
      exact h.got e r' hr'

/-- Every step keeps what is remembered proper. -/
theorem Inv.next (h : m.Inv) (hstep : m.Step binary ok m') :
  m'.Inv
  := by
  cases hstep with
  | turn _ hstep => exact h.after hstep
  | @storeFrom c cur hcur hpc =>
      have hlt := (h.named.cpu c cur hcur).lt
      exact h.withPc ⟨h.sent cur, h.told cur hlt⟩
  | @storePerm c cur fromEnv sent hcur hpc =>
      have hstored := h.pc cur (h.named.cpu c cur hcur).lt
      rw [hpc] at hstored
      exact h.withPc hstored
  | @returned c cur fromEnv perm sent hcur hpc =>
      have hstored := h.pc cur (h.named.cpu c cur hcur).lt
      rw [hpc] at hstored
      have hout : Stored (m.machine.kernel.envs cur) .outside := trivial
      exact (h.withPc hout).withGot hstored

theorem Run.inv (h : Run binary ok m) :
  m.Inv
  := by
  induction h with
  | boot hm =>
      constructor
      case named => exact hm.named
      case sent =>
        intro e l hl
        cases hl
      case told => exact fun e _ hne => (hne rfl).elim
      case pc => exact fun e _ => trivial
      case got =>
        intro e r hr
        cases hr
  | step _ hstep ih => exact ih.next hstep

/-- No call of `ipc_recv` reports any message that was sent before it read the fields. -/
theorem Run.not_reports (h : Run binary ok m) {e : Nat} {r : Receipt} (hr : r ∈ m.got e) {l : Sent}
    (hl : l ∈ r.sent) :
  ¬ Reports r.told l
  := by
  obtain ⟨hproper, hissued⟩ := h.inv.got e r hr
  exact Mail.not_reports (hproper l hl) (hissued (List.ne_nil_of_mem hl))

/-- The first call of `ipc_recv` that returns makes a wrong report. -/
theorem Run.not_exact_of_got (h : Run binary ok m) {e : Nat} (hne : m.got e ≠ []) :
  ¬ m.Exact e
  := by
  intro hexact
  obtain ⟨r, rest, hgot⟩ := List.exists_cons_of_ne_nil hne
  obtain ⟨l, hl, hreports⟩ := hexact 0 r (by rw [hgot]; rfl)
  have hmem : r ∈ m.got e := by
    rw [hgot]
    exact List.mem_cons_self
  exact h.not_reports hmem (List.mem_of_getElem? hl) hreports

/-- In every run the calls of `ipc_recv` of an environment report what was sent to it if and only
if none has returned. -/
theorem Run.ipcRecv_exact_iff (h : Run binary ok m) (e : Nat) :
  m.Exact e ↔ m.got e = []
  := by
  constructor
  · intro hexact
    by_contra hne
    exact h.not_exact_of_got hne hexact
  · intro hnone i r hr
    rw [hnone] at hr
    simp at hr

end Steps

/-! ### A run in which a message is received -/

section Received

variable {binary : Program → Binary} {ok : Machine → Nat → Event → Prop}

/-- Every run of the machine is one of which something is remembered. -/
theorem exists_run {M : Machine}
    (h : Reachable binary ok M) :
  ∃ m, Run binary ok m ∧ m.machine = M
  := by
  induction h with
  | boot hm => exact ⟨_, .boot hm, rfl⟩
  | @step M M' c ev _ hok hstep ih =>
      obtain ⟨m, hm, rfl⟩ := ih
      exact ⟨_, hm.step (.turn hok hstep), rfl⟩

/-- An environment that is in use goes on waiting. -/
theorem after_waiting {c e : Nat} {ev : Event} {M' : Machine}
    (hlive : (m.machine.kernel.envs e).envStatus ≠ .ENV_FREE)
    (hpc : receiving m.machine c ev e = true ∨ m.pc e = .waiting) :
  (m.after c ev M').pc e = .waiting
  := by
  have hold : ¬ m.Created M' e := fun hnew => hlive hnew.1
  simp only [Mail.after, if_neg hold]
  obtain hrecv | hwait := hpc
  · rw [if_pos hrecv]
  · rw [hwait, ite_self]

/-- What was sent to an environment that is in use stays sent. -/
theorem after_sent {c e : Nat} {ev : Event} {M' : Machine}
    (hlive : (m.machine.kernel.envs e).envStatus ≠ .ENV_FREE)
    (hsent : sending m.machine c ev e ≠ [] ∨ m.sent e ≠ []) :
  (m.after c ev M').sent e ≠ []
  := by
  have hold : ¬ m.Created M' e := fun hnew => hlive hnew.1
  simp only [Mail.after, if_neg hold]
  obtain hnew | hwas := hsent
  · exact List.append_ne_nil_of_right_ne_nil _ hnew
  · exact List.append_ne_nil_of_left_ne_nil hwas _

/-- A call of `sys_ipc_recv` that is not refused does not return at once. -/
theorem returns_sysIpcRecv (hcur : s.curenv = some cur) {dstva : Word}
    (hva : ¬ (dstva.toNat < UTOP ∧ dstva.toNat % PGSIZE ≠ 0)) :
  returns (sysIpcRecv dstva) s = none
  := by
  have hwait : (sysIpcRecv dstva).MayEnd s (fun _ _ => False) (fun _ => True) := by
    apply MayEnd.of_run_eq _ (sysIpcRecv_waits hcur hva)
    rw [mayEnd_bind]
    exact schedYield_resumed.mono (fun _ _ hno => hno.elim) (fun _ _ => trivial)
  unfold returns
  split
  case h_1 r s' heq => exact (hwait.of_eq heq).elim
  case h_2 => rfl

/-- What a running environment asks for. -/
theorem entering_asking {M : Machine} {e : Nat} (h : At M e) (no a1 a2 a3 a4 : Word) :
  entering M 0 (.trap (asking no a1 a2 a3 a4))
    = some (e, entered M.kernel e (asking no a1 a2 a3 a4))
  := by
  have hst : (M.kernel.envs e).envStatus ≠ .ENV_DYING := by
    rw [h.running]
    simp
  simp only [entering, h.cpuEnv_self]
  rw [if_neg hst]
  rfl

theorem asked_asking (s : Kernel) (e : Nat) (no a1 a2 a3 a4 : Word) :
  asked (entered s e (asking no a1 a2 a3 a4)) e = Syscall.ofWord no
    ∧ arg1 (entered s e (asking no a1 a2 a3 a4)) e = a1
    ∧ arg2 (entered s e (asking no a1 a2 a3 a4)) e = a2
    ∧ arg3 (entered s e (asking no a1 a2 a3 a4)) e = a3
    ∧ arg4 (entered s e (asking no a1 a2 a3 a4)) e = a4
  := by
  have htf : ((entered s e (asking no a1 a2 a3 a4)).envs e).envTf = asking no a1 a2 a3 a4 := by
    simp [entered, Kernel.setEnv]
  simp only [asked, arg1, arg2, arg3, arg4, htf]
  exact ⟨rfl, rfl, rfl, rfl, rfl⟩

/-- A child has called `ipc_recv` without a page, and its parent runs. -/
theorem exists_run_waiting :
  ∃ (m : Mail) (a : Nat) (c : Fin NENV), Run (fun _ => smallImage) KeepsStatus m ∧ At m.machine a
    ∧ Family m.machine.kernel a c ∧ (m.machine.kernel.envs c).envIpcRecving = true
    ∧ m.pc c = .waiting
  := by
  obtain ⟨M, a, c, hM, hf, hst, -⟩ := exists_at_child
  obtain ⟨m, hm, rfl⟩ := exists_run (hM.reachable.mono fun _ _ _ hok => hok.2)
  have hva : ¬ ((recvVa 0).toNat < UTOP ∧ (recvVa 0).toNat % PGSIZE ≠ 0) := by decide
  obtain ⟨M', hstep, hM', hf', hrecv, -⟩ := hM.receive_step hf hst hva
  have hreceiving : receiving m.machine 0 (.trap (asking 12 (recvVa 0) 0 0 0)) c = true := by
    have hcur : (entered m.machine.kernel c (asking 12 (recvVa 0) 0 0 0)).curenv = some c.val := rfl
    obtain ⟨hasked, harg, -⟩ := asked_asking m.machine.kernel c 12 (recvVa 0) 0 0 0
    rw [receiving, entering_asking hM]
    simp only
    rw [harg, hasked, returns_sysIpcRecv hcur hva]
    rfl
  have hkept := hM.keepsStatus (recvVa 0) 0 0 0
    (show Syscall.ofWord 12 = some .SYS_ipc_recv from rfl) (fun hset => by cases hset)
  exact ⟨_, a, c, hm.step (.turn hkept hstep), hM', hf', hrecv, after_waiting hM.live.2 (Or.inl hreceiving)⟩

/-- The parent has sent a value, and the child goes on in `ipc_recv`. -/
theorem exists_run_sent :
  ∃ (m : Mail) (c : Fin NENV), Run (fun _ => smallImage) KeepsStatus m ∧ At m.machine c ∧ m.pc c = .waiting
    ∧ m.sent c ≠ []
  := by
  obtain ⟨m, a, c, hm, hM, hf, hrecv, hpc⟩ := exists_run_waiting
  have hva : ¬ (recvVa 0).toNat < UTOP := by decide
  generalize hid : (m.machine.kernel.envs c).envId = envid
  obtain ⟨hsend, M', hstep, hM', hf', hst'⟩ := hM.send_step hf hrecv hid 7 hva
  have hsending : sending m.machine 0 (.trap (asking 11 envid 7 (recvVa 0) 0)) c ≠ [] := by
    obtain ⟨hasked, harg1, harg2, harg3, harg4⟩ :=
      asked_asking m.machine.kernel a 11 envid 7 (recvVa 0) 0
    have hfind := (hf.entered hM.wf (Or.inl rfl) hM.live (asking 11 envid 7 (recvVa 0) 0)).findEnv false
    have henv : (entered m.machine.kernel a (asking 11 envid 7 (recvVa 0) 0)).envs c
        = m.machine.kernel.envs c := by
      simp only [entered, Kernel.setEnv, Function.update_of_ne hf.ne.symm]
    rw [henv, hid] at hfind
    have hreturns : returns (sysIpcTrySend envid 7 (recvVa 0) 0)
        (entered m.machine.kernel a (asking 11 envid 7 (recvVa 0) 0)) = some 0 := by
      rw [returns, hsend]
    rw [sending, entering_asking hM]
    simp only
    rw [harg1, harg2, harg3, harg4, if_pos ⟨hasked, hfind, hreturns⟩]
    simp
  have hkept := hM.keepsStatus envid 7 (recvVa 0) 0
    (show Syscall.ofWord 11 = some .SYS_ipc_try_send from rfl) (fun hset => by cases hset)
  have hrun' := hm.step (.turn hkept hstep)
  have hpc' : (m.after 0 (.trap (asking 11 envid 7 (recvVa 0) 0)) M').pc c = .waiting :=
    after_waiting hf.child.2 (Or.inr hpc)
  have hsent' : (m.after 0 (.trap (asking 11 envid 7 (recvVa 0) 0)) M').sent c ≠ [] :=
    after_sent hf.child.2 (Or.inl hsending)
  obtain ⟨M'', hstep', hM'', -⟩ := hM'.yield_step hf' hst'
  have hkept' := hM'.keepsStatus 0 0 0 0
    (show Syscall.ofWord 10 = some .SYS_yield from rfl) (fun hset => by cases hset)
  exact ⟨_, c, hrun'.step (.turn hkept' hstep'), hM'', after_waiting hf'.child.2 (Or.inr hpc'),
    after_sent hf'.child.2 (Or.inr hsent')⟩

/-- A child waits in `ipc_recv`, its parent sends it a value, and the call of the child returns. -/
theorem exists_run_received :
  ∃ (m : Mail) (e : Nat) (r : Receipt), Run (fun _ => smallImage) KeepsStatus m ∧ r ∈ m.got e ∧ r.sent ≠ []
  := by
  obtain ⟨m, c, hm, hM, hpc, hsent⟩ := exists_run_sent
  have hcur := hM.cpuEnv_self
  have h1 := hm.step (.storeFrom hcur hpc)
  have h2 := h1.step (.storePerm hcur (Function.update_self ..))
  have h3 := h2.step (.returned hcur (Function.update_self ..))
  have hmem : ∀ (l : List Receipt) (r : Receipt), r ∈ l ++ [r] :=
    fun l r => List.mem_append_right l List.mem_cons_self
  refine ⟨_, c, { told := { value := returnedValue (m.machine.kernel.envs c)
                            fromEnv := fromEnvStore (m.machine.kernel.envs c)
                            perm := permStore (m.machine.kernel.envs c) }
                  sent := m.sent c }, h3, ?_, hsent⟩
  simp only [Function.update_self]
  exact hmem _ _

end Received

/-- Some call of `ipc_recv` returns in the run above, and what it reports is wrong. -/
theorem ipcRecv_exact_iff_child :
  ∃ (m : Mail) (e : Nat), m.got e ≠ [] ∧ (m.Exact e ↔ m.got e = [])
  := by
  obtain ⟨m, e, r, hm, hr, -⟩ := exists_run_received
  exact ⟨m, e, List.ne_nil_of_mem hr, hm.ipcRecv_exact_iff e⟩

/-- The reports of `ipc_recv` are not those of the messages that were sent, although no environment
that waits for a message is given a status. -/
theorem not_ipcRecv_exact :
  ¬ ∀ (binary : Program → Binary) (m : Mail), Run binary KeepsStatus m → ∀ e, m.Exact e
  := by
  intro hall
  obtain ⟨m, e, r, hm, hr, -⟩ := exists_run_received
  exact hm.not_exact_of_got (List.ne_nil_of_mem hr) (hall _ m hm e)

end Mail

end Root

end Jos
