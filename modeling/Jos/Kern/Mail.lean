import Jos.Kern.Atomic
import Jos.Kern.Traps
import Jos.Kern.UserMode

/-!
# Messages between environments

A message goes through five fields of the receiver.  `sys_ipc_recv` marks the receiver as
waiting, `sys_ipc_try_send` fills the fields in and wakes it, and `ipc_recv` reads them in
user mode, one by one, after the receiver has been scheduled again.  Other environments may
run and send messages of their own at any time in between.

The runs of this module are those of the machine with any number of environments, and any
system calls in any order.  Beside the state of the kernel they remember the messages sent
to each environment, those it has received, and how far it has come in `ipc_recv`.

There is room for one message.  An environment that asks for another one before it has read the
last one, as `ipc_recv` never does, loses it.
-/

namespace Jos

open Bytes Prog

variable {avail : Finset Nat} {s s' s'' : Kernel} {cur : Nat}

/-! ### Messages -/

/-- What the receiver of a message is told. -/
structure Message where
  value : Word
  sender : Word
  perm : Word
  deriving DecidableEq

/-- The message recorded in an environment. -/
def Env.message (env : Env) : Message :=
  { value := env.envIpcValue, sender := env.envIpcFrom, perm := env.envIpcPerm }

/-- How far an environment has come in `ipc_recv`. -/
inductive RecvPc where
  /-- It is not in `ipc_recv`. -/
  | outside
  /-- It has called `sys_ipc_recv`. -/
  | waiting
  /-- It has read who sent the message. -/
  | gotSender (sender : Word)
  /-- It has read who sent the message and with which permissions. -/
  | gotPerm (sender perm : Word)

/-- The kernel with what is remembered of the messages to each environment. -/
structure Mail where
  kernel : Kernel
  sent : Nat → List Message
  got : Nat → List Message
  pc : Nat → RecvPc

namespace Mail

variable {m m' : Mail}

/-- The environment `e` has asked for a message that has not come. -/
def Blocked (m : Mail) (e : Nat) : Prop :=
  m.pc e = .waiting ∧ m.sent e = m.got e

/-- The messages a turn of the environment `cur` sends to the environment `e`. -/
def sending (t : Turn) (cur e : Nat) : List Message :=
  if t.result cur = some (.SYS_ipc_try_send, 0)
      ∧ (t.saved cur).findEnv cur t.tf.tfRegs.regEdx false = some e then
    [{ value := t.tf.tfRegs.regEcx
       sender := ((t.saved cur).envs cur).envId
       perm := t.tf.tfRegs.regEdi }]
  else
    []

/-- How far the environment `e` has come after a turn of the environment `cur`. -/
def pcAfter (m : Mail) (t : Turn) (cur e : Nat) : RecvPc :=
  if e = cur ∧ t.result cur = some (.SYS_ipc_recv, 0) then .waiting else m.pc e

/-- What is remembered after a turn of the environment `cur`. Nothing is remembered about an
environment that was created. -/
def after (m : Mail) (t : Turn) (cur : Nat) (s' : Kernel) : Mail where
  kernel := s'
  sent e := if (m.kernel.envs e).envStatus = .ENV_FREE ∧ (s'.envs e).envStatus ≠ .ENV_FREE then []
    else m.sent e ++ sending t cur e
  got e := if (m.kernel.envs e).envStatus = .ENV_FREE ∧ (s'.envs e).envStatus ≠ .ENV_FREE then []
    else m.got e
  pc e := if (m.kernel.envs e).envStatus = .ENV_FREE ∧ (s'.envs e).envStatus ≠ .ENV_FREE then
      .outside
    else m.pcAfter t cur e

/-- A turn that does not change the status of an environment that has asked for a message. -/
def StatusKept (m : Mail) (t : Turn) (cur : Nat) : Prop :=
  ∀ s e, t.called cur = some s →
    Syscall.ofWord t.tf.tfRegs.regEax = some .SYS_env_set_status →
    s.findEnv cur t.tf.tfRegs.regEdx true = some e → ¬ m.Blocked e

/-- A turn that does not ask for a message before the last one was read, and does not change
the status of an environment that has asked for one. The message it sends asks for permissions
only, and no page has more references than its counter can count. -/
structure Fair (avail : Finset Nat) (m : Mail) (t : Turn) (cur : Nat) : Prop where
  recv : m.pc cur ≠ .outside → t.result cur ≠ some (.SYS_ipc_recv, 0)
  status : m.StatusKept t cur
  modest : t.Modest
  fits : m.kernel.Fits avail (fun _ => 0)

/-- The steps of the machine: a turn of the current environment with the property `P`, or a step
of the current environment in `ipc_recv`. -/
inductive Step (P : Mail → Turn → Nat → Prop) (m : Mail) : Mail → Prop
  | turn {t : Turn} {cur : Nat} {s' : Kernel} (hcur : m.kernel.curenv = some cur)
    (hP : P m t cur) (htakes : t.Takes m.kernel s') : Step P m (m.after t cur s')
  | readSender {cur : Nat} (hcur : m.kernel.curenv = some cur) (hpc : m.pc cur = .waiting) :
    Step P m { m with
      pc := Function.update m.pc cur (.gotSender (m.kernel.envs cur).envIpcFrom) }
  | readPerm {cur : Nat} {sender : Word} (hcur : m.kernel.curenv = some cur)
    (hpc : m.pc cur = .gotSender sender) :
    Step P m { m with
      pc := Function.update m.pc cur (.gotPerm sender (m.kernel.envs cur).envIpcPerm) }
  | readValue {cur : Nat} {sender perm : Word} (hcur : m.kernel.curenv = some cur)
    (hpc : m.pc cur = .gotPerm sender perm) :
    Step P m { m with
      got := Function.update m.got cur (m.got cur ++
        [{ value := (m.kernel.envs cur).envIpcValue, sender := sender, perm := perm }])
      pc := Function.update m.pc cur .outside }

/-! ### The invariant -/

/-- What the fields of a live environment say about the messages to it. -/
inductive Box (env : Env) : RecvPc → List Message → List Message → Prop
  | idle {l : List Message} (hrecv : env.envIpcRecving = false) : Box env .outside l l
  | blocked {l : List Message} (hrecv : env.envIpcRecving = true)
    (hst : env.envStatus = .ENV_NOT_RUNNABLE) : Box env .waiting l l
  | waiting {l : List Message} (hrecv : env.envIpcRecving = false) :
    Box env .waiting (l ++ [env.message]) l
  | gotSender {l : List Message} (hrecv : env.envIpcRecving = false) :
    Box env (.gotSender env.envIpcFrom) (l ++ [env.message]) l
  | gotPerm {l : List Message} (hrecv : env.envIpcRecving = false) :
    Box env (.gotPerm env.envIpcFrom env.envIpcPerm) (l ++ [env.message]) l

variable {env env' : Env} {pc : RecvPc} {l l' : List Message}

/-- An environment that waits cannot be run. -/
theorem Box.notRunnable (h : Box env pc l l') (hrecv : env.envIpcRecving = true) :
  env.envStatus = .ENV_NOT_RUNNABLE ∧ pc = .waiting ∧ l = l'
  := by
  cases h with
  | idle hno => rw [hrecv] at hno; cases hno
  | blocked _ hst => exact ⟨hst, rfl, rfl⟩
  | waiting hno => rw [hrecv] at hno; cases hno
  | gotSender hno => rw [hrecv] at hno; cases hno
  | gotPerm hno => rw [hrecv] at hno; cases hno

/-- Other fields may change, and the status of an environment that does not wait. -/
theorem Box.congr (h : Box env pc l l') (hmsg : env'.message = env.message)
    (hrecv : env'.envIpcRecving = env.envIpcRecving)
    (hst : env.envIpcRecving = true → env'.envStatus = env.envStatus) :
  Box env' pc l l'
  := by
  have hfrom : env'.envIpcFrom = env.envIpcFrom := congrArg Message.sender hmsg
  have hperm : env'.envIpcPerm = env.envIpcPerm := congrArg Message.perm hmsg
  cases h with
  | idle hno => exact .idle (hrecv.trans hno)
  | blocked hyes hst' => exact .blocked (hrecv.trans hyes) ((hst hyes).trans hst')
  | waiting hno =>
      rw [← hmsg]
      exact .waiting (hrecv.trans hno)
  | gotSender hno =>
      rw [← hmsg, ← hfrom]
      exact .gotSender (hrecv.trans hno)
  | gotPerm hno =>
      rw [← hmsg, ← hfrom, ← hperm]
      exact .gotPerm (hrecv.trans hno)

/-- At most one message has been sent that was not received. -/
def Pending (l l' : List Message) : Prop :=
  ∃ pending : List Message, l = l' ++ pending ∧ pending.length ≤ 1

/-- In the state `s` that the kernel of `m` has come to, the fields of the environments say
what the messages are, with the program points `pc` and the messages sent `sent`. -/
structure Carried (m : Mail) (pc : Nat → RecvPc) (sent : Nat → List Message) (s : Kernel) :
    Prop where
  env : ∃ fl, EnvInv fl s
  old : ∀ e, s.Live e → m.kernel.Live e → Box (s.envs e) (pc e) (sent e) (m.got e)
  new : ∀ e, s.Live e → ¬ m.kernel.Live e → (s.envs e).envIpcRecving = false
  pending : ∀ e < NENV, Pending (sent e) (m.got e)

namespace Carried

variable {p : Nat → RecvPc} {q : Nat → List Message} (h : m.Carried p q s)
include h

/-- An environment that waits cannot be run. -/
theorem notRecving {e : Nat} (hlive : s.Live e)
    (hst : (s.envs e).envStatus ≠ .ENV_NOT_RUNNABLE) :
  (s.envs e).envIpcRecving = false
  := by
  cases hrecv : (s.envs e).envIpcRecving with
  | false => rfl
  | true =>
      by_cases hold : m.kernel.Live e
      · exact (hst ((h.old e hlive hold).notRunnable hrecv).1).elim
      · rw [h.new e hlive hold] at hrecv
        cases hrecv

/-- Changes that keep every live environment, but for fields that say nothing of messages. -/
theorem congr (henv : ∃ fl, EnvInv fl s')
    (hkeep : ∀ e, s'.Live e → s.Live e ∧ (s'.envs e).message = (s.envs e).message
      ∧ (s'.envs e).envIpcRecving = (s.envs e).envIpcRecving
      ∧ ((s.envs e).envIpcRecving = true → (s'.envs e).envStatus = (s.envs e).envStatus)) :
  m.Carried p q s'
  := by
  constructor
  case env => exact henv
  case old =>
    intro e hlive hold
    obtain ⟨hlive', hmsg, hrecv, hst⟩ := hkeep e hlive
    exact (h.old e hlive' hold).congr hmsg hrecv hst
  case new =>
    intro e hlive hold
    obtain ⟨hlive', -, hrecv, -⟩ := hkeep e hlive
    exact hrecv.trans (h.new e hlive' hold)
  case pending => exact h.pending

theorem memOnly (hmem : MemOnly s s') :
  m.Carried p q s'
  := by
  obtain ⟨fl, hfl⟩ := h.env
  apply h.congr ⟨fl, hfl.memOnly hmem⟩
  intro e hlive
  rw [Kernel.Live, hmem.envs] at hlive
  rw [hmem.envs]
  exact ⟨hlive, rfl, rfl, fun _ => rfl⟩

/-- Changing an environment but for what the message is. -/
theorem setEnv {e : Nat} {env : Env} (hlive : s.Live e) (hst : env.envStatus ≠ .ENV_FREE)
    (hpg : env.envPgdir = (s.envs e).envPgdir) (hmsg : env.message = (s.envs e).message)
    (hrecv : env.envIpcRecving = (s.envs e).envIpcRecving)
    (hstatus : (s.envs e).envIpcRecving = true → env.envStatus = (s.envs e).envStatus) :
  m.Carried p q (s.setEnv e env)
  := by
  obtain ⟨fl, hfl⟩ := h.env
  apply h.congr ⟨fl, hfl.setEnv hlive.2 hst hpg⟩
  intro e' hlive'
  by_cases he : e' = e
  · rw [he, Kernel.setEnv_envs_self]
    exact ⟨hlive, hmsg, hrecv, hstatus⟩
  · rw [Kernel.Live, Kernel.setEnv_envs_of_ne _ _ he] at hlive'
    rw [Kernel.setEnv_envs_of_ne _ _ he]
    exact ⟨hlive', rfl, rfl, fun _ => rfl⟩

/-- Changing the status of an environment that does not wait. -/
theorem status {e : Nat} {st : EnvStatus} (hlive : s.Live e) (hst : st ≠ .ENV_FREE)
    (hrecv : (s.envs e).envIpcRecving = false) :
  m.Carried p q (s.setEnv e { s.envs e with envStatus := st })
  := by
  refine h.setEnv hlive hst rfl rfl rfl ?_
  intro hyes
  rw [hrecv] at hyes
  cases hyes

theorem withTf {e : Nat} (hlive : s.Live e) (tf : Trapframe) :
  m.Carried p q (s.withTf e tf)
  := h.setEnv hlive hlive.2 rfl rfl rfl (fun _ => rfl)

theorem minor {e : Nat} (hlive : s.Live e) (hminor : Minor e s s') :
  m.Carried p q s' ∧ s'.Live e
  := by
  obtain ⟨tf, hun⟩ := hminor
  refine ⟨(h.withTf hlive tf).memOnly hun.memOnly, hlive.1, ?_⟩
  rw [hun.memOnly.envs, Kernel.withTf, Kernel.setEnv_envs_self]
  exact hlive.2

/-- Freeing an environment says nothing of the messages to others. -/
theorem freed {e : Nat} (hlive : s.Live e) (hfreed : EnvFreed e s s') :
  m.Carried p q s'
  := by
  obtain ⟨fl, hfl⟩ := h.env
  apply h.congr ⟨e :: fl, hfl.freed hlive hfreed⟩
  intro e' hlive'
  by_cases he : e' = e
  · rw [Kernel.Live, hfreed.envs, he, Function.update_self] at hlive'
    exact (hlive'.2 rfl).elim
  · rw [Kernel.Live, hfreed.envs, Function.update_of_ne he] at hlive'
    rw [hfreed.envs, Function.update_of_ne he]
    exact ⟨hlive', rfl, rfl, fun _ => rfl⟩

/-- Switching to an environment that does not wait says nothing of messages. -/
theorem running {e : Nat} (hlive : s.Live e) (hst : (s.envs e).envStatus ≠ .ENV_NOT_RUNNABLE) :
  m.Carried p q (s.running e)
  := by
  obtain ⟨fl, hfl⟩ := h.env
  apply h.congr ⟨fl, hfl.running hlive.2⟩
  intro e' hlive'
  obtain ⟨st, cpu, runs, henv, hfree, -⟩ := s.running_envs e e'
  rw [Kernel.Live, henv] at hlive'
  have hlive'' : s.Live e' := by
    refine ⟨hlive'.1, ?_⟩
    intro hf
    by_cases he : e' = e
    · exact hlive.2 (he ▸ hf)
    · have hsame := s.running_envs_of_free hf he
      rw [henv] at hsame
      exact hlive'.2 ((congrArg Env.envStatus hsame).trans hf)
  rw [henv]
  refine ⟨hlive'', rfl, rfl, ?_⟩
  intro hrecv
  have hnot : (s.envs e').envStatus = .ENV_NOT_RUNNABLE := by
    by_contra hne
    rw [h.notRecving hlive'' hne] at hrecv
    cases hrecv
  have he : e' ≠ e := by
    rintro rfl
    exact hst hnot
  have hpre : s.preempted.envs e' = s.envs e' := by
    obtain hpre | ⟨hrun, -⟩ := s.preempted_envs e'
    · exact hpre
    · rw [hnot] at hrun
      cases hrun
  have hsame : (s.running e).envs e' = s.envs e' := by
    simp only [Kernel.running, Kernel.setEnv]
    rw [Function.update_of_ne he, hpre]
  rw [henv] at hsame
  exact congrArg Env.envStatus hsame

/-- Going on with an environment says nothing of messages. -/
theorem resumed (hres : Resumed s s') :
  m.Carried p q s'
  := by
  obtain ⟨fl, hfl⟩ := h.env
  cases hres with
  | halt => exact h.congr ⟨fl, hfl.congr rfl rfl⟩ (fun _ hlive => ⟨hlive, rfl, rfl, fun _ => rfl⟩)
  | @run e hlt hst =>
      obtain hst | hst := hst
      · exact h.running ⟨hlt, by rw [hst]; simp⟩ (by rw [hst]; simp)
      · exact h.running ⟨hlt, by rw [hst]; simp⟩ (by rw [hst]; simp)

end Carried

/-! ### Turns -/

/-- A turn in which no message is sent or asked for. -/
theorem unsent (m : Mail) (t : Turn) (cur : Nat)
    (hsend : t.result cur ≠ some (.SYS_ipc_try_send, 0))
    (hrecv : t.result cur ≠ some (.SYS_ipc_recv, 0)) :
  m.pcAfter t cur = m.pc ∧ (fun e => m.sent e ++ sending t cur e) = m.sent
  := by
  constructor
  · funext e
    rw [pcAfter, if_neg (fun h => hrecv h.2)]
  · funext e
    rw [sending, if_neg (fun h => hsend h.1), List.append_nil]

section Changes

variable {p : Nat → RecvPc} {q : Nat → List Message} (h : m.Carried p q s)
  (hstatus : ∀ e, (s.envs e).envStatus = (m.kernel.envs e).envStatus)
include h hstatus

/-- Creating an environment says nothing of the messages to others. -/
theorem Carried.created {e : Nat} {type : EnvType} {parentId : Word} {s1 : Kernel}
    (hmade : EnvMade e type parentId s s1) (tf : Trapframe) :
  m.Carried p q
    (s1.setEnv e { s1.envs e with envTf := tf, envStatus := .ENV_NOT_RUNNABLE })
  := by
  obtain ⟨fl, hfl⟩ := h.env
  obtain ⟨hfree, fl', hfl'⟩ := hmade.free hfl
  obtain ⟨pg, henvs⟩ := hmade.envs
  have hlive1 : (s1.envs e).envStatus ≠ .ENV_FREE := by
    rw [henvs, Function.update_self]
    simp [newEnv]
  constructor
  case env => exact ⟨fl', hfl'.setEnv hlive1 (by simp) rfl⟩
  case old =>
    intro e' hlive' hold'
    have he : e' ≠ e := by
      rintro rfl
      rw [Kernel.Live, ← hstatus] at hold'
      exact hold'.2 hfree
    rw [Kernel.Live, Kernel.setEnv_envs_of_ne _ _ he, henvs, Function.update_of_ne he] at hlive'
    rw [Kernel.setEnv_envs_of_ne _ _ he, henvs, Function.update_of_ne he]
    exact h.old e' hlive' hold'
  case new =>
    intro e' hlive' hold'
    by_cases he : e' = e
    · rw [he, Kernel.setEnv_envs_self, henvs, Function.update_self]
      rfl
    · rw [Kernel.Live, Kernel.setEnv_envs_of_ne _ _ he, henvs, Function.update_of_ne he,
        hstatus] at hlive'
      exact (hold' hlive').elim
  case pending => exact h.pending

/-- Recording a message for an environment that waits. -/
theorem Carried.delivered {e : Nat} (helive : s.Live e)
    (hrecv : (s.envs e).envIpcRecving = true) (value perm : Word) :
  m.Carried p (fun e' => q e' ++ if e' = e then
      [{ value := value, sender := (s.envs cur).envId, perm := perm }]
    else
      []) (s.delivered cur e value perm)
  := by
  obtain ⟨fl, hfl⟩ := h.env
  have hold : m.kernel.Live e := by
    rw [Kernel.Live, ← hstatus]
    exact helive
  obtain ⟨-, hpc, hsent⟩ := (h.old e helive hold).notRunnable hrecv
  constructor
  case env => exact ⟨fl, hfl.setEnv helive.2 (by simp) rfl⟩
  case old =>
    intro e' hlive' hold'
    by_cases he : e' = e
    · rw [he, if_pos rfl, hpc, hsent, Kernel.delivered, Kernel.setEnv_envs_self]
      exact .waiting rfl
    · rw [Kernel.Live, Kernel.delivered, Kernel.setEnv_envs_of_ne _ _ he] at hlive'
      rw [if_neg he, List.append_nil, Kernel.delivered, Kernel.setEnv_envs_of_ne _ _ he]
      exact h.old e' hlive' hold'
  case new =>
    intro e' hlive' hold'
    by_cases he : e' = e
    · exact (hold' (he ▸ hold)).elim
    · rw [Kernel.Live, Kernel.delivered, Kernel.setEnv_envs_of_ne _ _ he, hstatus] at hlive'
      exact (hold' hlive').elim
  case pending =>
    intro e' he'
    by_cases he : e' = e
    · rw [he, if_pos rfl, hsent]
      exact ⟨_, rfl, Nat.le_refl 1⟩
    · rw [if_neg he, List.append_nil]
      exact h.pending e' he'

/-- An environment outside `ipc_recv` asks for a message. -/
theorem Carried.received (hlive : s.Live cur) (hpc : p cur = .outside) (dstva : Word) :
  m.Carried (fun e => if e = cur then .waiting else p e) q (s.setEnv cur { s.envs cur with
    envIpcDstva := dstva
    envIpcRecving := true
    envIpcValue := 0
    envIpcFrom := 0
    envIpcPerm := 0
    envStatus := .ENV_NOT_RUNNABLE })
  := by
  obtain ⟨fl, hfl⟩ := h.env
  have hold : m.kernel.Live cur := by
    rw [Kernel.Live, ← hstatus]
    exact hlive
  constructor
  case env => exact ⟨fl, hfl.setEnv hlive.2 (by simp) rfl⟩
  case old =>
    intro e hlive' hold'
    by_cases he : e = cur
    · have hbox := h.old cur hlive hold
      rw [hpc] at hbox
      rw [he, if_pos rfl, Kernel.setEnv_envs_self]
      revert hbox
      generalize q cur = sent
      generalize m.got cur = got
      intro hbox
      cases hbox
      exact .blocked rfl rfl
    · rw [Kernel.Live, Kernel.setEnv_envs_of_ne _ _ he] at hlive'
      rw [if_neg he, Kernel.setEnv_envs_of_ne _ _ he]
      exact h.old e hlive' hold'
  case new =>
    intro e hlive' hold'
    by_cases he : e = cur
    · exact (hold' (he ▸ hold)).elim
    · rw [Kernel.Live, Kernel.setEnv_envs_of_ne _ _ he, hstatus] at hlive'
      exact (hold' hlive').elim
  case pending => exact h.pending

end Changes

section Call

variable {t : Turn} {s1 : Kernel} {sys : Syscall} {r : Word} (h : m.Carried m.pc m.sent s)
  (hcall : t.called cur = some s) (hreads : Reads (t.saved cur) s) (hfair : m.Fair avail t cur)
  (hlive : s.Live cur)
  (hstatus : ∀ e, (s.envs e).envStatus = (m.kernel.envs e).envStatus)
  (hsys : Syscall.ofWord t.tf.tfRegs.regEax = some sys) (heq : t.syscall s = .ok (r, s1))
include h hcall hreads hfair hlive hstatus hsys heq

/-- A system call that returns sends at most one message, and asks for at most one. -/
theorem Carried.returned
    (hret : SysReturned cur t.tf.tfRegs.regEdx t.tf.tfRegs.regEcx t.tf.tfRegs.regEdi s sys r s1) :
  m.Carried (m.pcAfter t cur) (fun e => m.sent e ++ sending t cur e) s1
  := by
  have hold : ∀ {e}, s.Live e → m.kernel.Live e := by
    intro e he
    rw [Kernel.Live, ← hstatus]
    exact he
  have hresult : t.result cur = some (sys, r) := by
    simp only [Turn.result, hcall, heq, hsys, Option.map_some]
  have hnone : ∀ {s'}, sys ≠ .SYS_ipc_try_send → sys ≠ .SYS_ipc_recv → m.Carried m.pc m.sent s' →
      m.Carried (m.pcAfter t cur) (fun e => m.sent e ++ sending t cur e) s' := by
    intro s' hsend hrecv hs'
    obtain ⟨hpc, hsent⟩ := unsent m t cur
      (by rw [hresult]; simp [hsend]) (by rw [hresult]; simp [hrecv])
    rw [hpc, hsent]
    exact hs'
  cases hret with
  | quiet hmem hsend hrecv =>
      obtain ⟨hpc, hsent⟩ := unsent m t cur
        (by
          rw [hresult]
          intro heq'
          obtain ⟨hs, hr⟩ := Prod.mk.inj (Option.some.inj heq')
          exact (hsend hs).1 hr)
        (by
          rw [hresult]
          intro heq'
          obtain ⟨hs, hr⟩ := Prod.mk.inj (Option.some.inj heq')
          exact hrecv hs hr)
      rw [hpc, hsent]
      exact h.memOnly hmem
  | @status e st hfind hst' =>
      have helive := findEnv_live hlive hfind
      have hrecv : (s.envs e).envIpcRecving = false := by
        by_contra hyes
        rw [Bool.not_eq_false] at hyes
        have hnot := hfair.status s e hcall hsys hfind
        obtain ⟨-, hpc, hsent⟩ := (h.old e helive (hold helive)).notRunnable hyes
        exact hnot ⟨hpc, hsent⟩
      exact hnone (by simp) (by simp) (h.status helive (statusOfWord_ne_free hst') hrecv)
  | @trapframe e s2 tf hfind hmem =>
      have helive : s2.Live e := by
        rw [Kernel.Live, hmem.envs]
        exact findEnv_live hlive hfind
      exact hnone (by simp) (by simp) ((h.memOnly hmem).withTf helive tf)
  | @pgfaultUpcall e hfind =>
      have helive := findEnv_live hlive hfind
      apply hnone (by simp) (by simp)
      exact h.setEnv helive helive.2 rfl rfl rfl (fun _ => rfl)
  | @dying e hfind hrun hne =>
      have helive := findEnv_live hlive hfind
      have hrecv := h.notRecving helive (by rw [hrun]; simp)
      exact hnone (by simp) (by simp) (h.status helive (by simp) hrecv)
  | @freed e _ hfind hne hfreed =>
      exact hnone (by simp) (by simp) (h.freed (findEnv_live hlive hfind) hfreed)
  | created tf hsys' hmade =>
      apply hnone
      · rintro rfl
        simp at hsys'
      · rintro rfl
        simp at hsys'
      exact h.created hstatus hmade tf
  | @sent e s2 hfind hrecv hmem =>
      have hlive2 : s2.Live e := by
        rw [Kernel.Live, hmem.envs]
        exact findEnv_live hlive hfind
      have hstatus2 : ∀ e, (s2.envs e).envStatus = (m.kernel.envs e).envStatus := by
        intro e
        rw [hmem.envs]
        exact hstatus e
      have hfind' : (t.saved cur).findEnv cur t.tf.tfRegs.regEdx false = some e := by
        rw [← hfind, Kernel.findEnv, Kernel.findEnv, hreads.memOnly.envs]
      have hpcAfter : m.pcAfter t cur = m.pc := by
        funext e'
        rw [pcAfter, if_neg]
        rintro ⟨-, hno⟩
        rw [hresult] at hno
        simp at hno
      have hsending : ∀ e', sending t cur e' = if e' = e then
          [{ value := t.tf.tfRegs.regEcx, sender := (s2.envs cur).envId,
             perm := t.tf.tfRegs.regEdi }] else [] := by
        intro e'
        rw [sending, hresult, hfind', hmem.envs, hreads.memOnly.envs]
        by_cases he : e' = e
        · rw [if_pos he, if_pos ⟨rfl, by rw [he]⟩]
        · rw [if_neg he, if_neg (fun hno => he (Option.some.inj hno.2).symm)]
      rw [hpcAfter]
      simp only [hsending]
      apply (h.memOnly hmem).delivered hstatus2 hlive2
      rw [hmem.envs]
      exact hrecv
  | received =>
      have hpc : m.pc cur = .outside := by
        by_contra hne
        exact hfair.recv hne hresult
      have hsent : (fun e => m.sent e ++ sending t cur e) = m.sent := by
        funext e
        rw [sending, if_neg, List.append_nil]
        rintro ⟨hno, -⟩
        rw [hresult] at hno
        simp at hno
      have hpcAfter : m.pcAfter t cur = fun e => if e = cur then .waiting else m.pc e := by
        funext e
        simp only [pcAfter, hresult, and_true]
      rw [hsent, hpcAfter]
      exact h.received hstatus hlive hpc t.tf.tfRegs.regEdx

end Call

theorem Carried.idle {p : Nat → RecvPc} {q : Nat → List Message} (h : m.Carried p q s) :
  m.Carried p q { s with curenv := none }
  := by
  obtain ⟨fl, hfl⟩ := h.env
  exact h.congr ⟨fl, hfl.congr rfl rfl⟩ (fun _ hlive => ⟨hlive, rfl, rfl, fun _ => rfl⟩)

/-- The current environment is running. -/
def CurRunning (s : Kernel) : Prop :=
  ∀ cur, s.curenv = some cur → cur < NENV ∧ (s.envs cur).envStatus = .ENV_RUNNING

theorem curRunning_running {e : Nat} (hlt : e < NENV) :
  CurRunning (s.running e)
  := by
  intro cur hcur
  obtain rfl := Option.some.inj hcur
  obtain ⟨st, cpu, runs, henv, -, hst⟩ := s.running_envs e e
  rw [henv]
  exact ⟨hlt, hst rfl⟩

theorem curRunning_resumed (hres : Resumed s s') :
  CurRunning s'
  := by
  cases hres with
  | halt =>
      intro cur hcur
      cases hcur
  | run hlt => exact curRunning_running hlt

/-- A trap that is no system call sends no message and asks for none. -/
theorem Carried.gone {p : Nat → RecvPc} {q : Nat → List Message} (h : m.Carried p q s)
    (hlive : s.Live cur) (hst : (s.envs cur).envStatus = .ENV_RUNNING) (hgone : Gone cur s s') :
  m.Carried p q s' ∧ CurRunning s'
  := by
  cases hgone with
  | on hminor hres => exact ⟨(h.minor hlive hminor).1.resumed hres, curRunning_resumed hres⟩
  | @upcall s1 s2 va ws tf hminor hlo hhi hstore =>
      have hmem := (MemOnly.kernStoreWords va ws s1).of_eq hstore
      obtain ⟨h1, hlive1⟩ := h.minor hlive hminor
      have hst1 : (s1.envs cur).envStatus = .ENV_RUNNING := by
        obtain ⟨tf', hun⟩ := hminor
        rw [hun.memOnly.envs, Kernel.withTf, Kernel.setEnv_envs_self]
        exact hst
      have henvs : ((s2.withTf cur tf).envs cur).envStatus = .ENV_RUNNING := by
        rw [Kernel.withTf, Kernel.setEnv_envs_self, hmem.envs]
        exact hst1
      have hlive2 : s2.Live cur := by
        rw [Kernel.Live, hmem.envs]
        exact hlive1
      have hlive3 : (s2.withTf cur tf).Live cur := ⟨hlive.1, by rw [henvs]; simp⟩
      refine ⟨?_, curRunning_running hlive.1⟩
      exact ((h1.memOnly hmem).withTf hlive2 tf).running hlive3 (by rw [henvs]; simp)
  | freed hminor hfreed hres =>
      obtain ⟨h1, hlive1⟩ := h.minor hlive hminor
      exact ⟨(h1.freed hlive1 hfreed).idle.resumed hres, curRunning_resumed hres⟩

/-- What holds of the messages in every state of a run. -/
structure Inv (m : Mail) : Prop where
  carried : m.Carried m.pc m.sent m.kernel
  running : CurRunning m.kernel

/-- What the invariant says at the end of a turn. -/
theorem Carried.after {t : Turn} (h : m.Carried (m.pcAfter t cur)
    (fun e => m.sent e ++ sending t cur e) s') (hrun : CurRunning s') :
  (m.after t cur s').Inv
  := by
  refine ⟨?_, hrun⟩
  constructor
  case env => exact h.env
  case old =>
    intro e hlive _
    by_cases hold : m.kernel.Live e
    · have hno : ¬ ((m.kernel.envs e).envStatus = .ENV_FREE ∧ (s'.envs e).envStatus ≠ .ENV_FREE) :=
        fun hf => hold.2 hf.1
      simp only [Mail.after, if_neg hno]
      exact h.old e hlive hold
    · have hnew : (m.kernel.envs e).envStatus = .ENV_FREE ∧ (s'.envs e).envStatus ≠ .ENV_FREE := by
        refine ⟨?_, hlive.2⟩
        by_contra hne
        exact hold ⟨hlive.1, hne⟩
      simp only [Mail.after, if_pos hnew]
      exact .idle (h.new e hlive hold)
  case new =>
    intro e hlive hold
    exact (hold hlive).elim
  case pending =>
    intro e he
    by_cases hnew : (m.kernel.envs e).envStatus = .ENV_FREE ∧ (s'.envs e).envStatus ≠ .ENV_FREE
    · simp only [Mail.after, if_pos hnew]
      exact ⟨[], rfl, Nat.zero_le 1⟩
    · simp only [Mail.after, if_neg hnew]
      exact h.pending e he

/-- A turn of the machine keeps the invariant. -/
theorem Inv.turn {t : Turn} (h : m.Inv) (hcur : m.kernel.curenv = some cur)
    (hfair : m.Fair avail t cur) (htakes : t.Takes m.kernel s') :
  (m.after t cur s').Inv
  := by
  obtain ⟨hlt, hst⟩ := h.running cur hcur
  have hran : MemOnly m.kernel t.entered := by
    rw [htakes.ran.quiet]
    exact ⟨rfl, rfl, rfl⟩
  have hlive : t.entered.Live cur := by
    rw [Kernel.Live, hran.envs]
    exact ⟨hlt, by rw [hst]; simp⟩
  have hst' : (t.entered.envs cur).envStatus = .ENV_RUNNING := by
    rw [hran.envs]
    exact hst
  have hentered := h.carried.memOnly hran
  have hnone : ∀ {s'}, t.result cur = none → m.Carried m.pc m.sent s' → CurRunning s' →
      (m.after t cur s').Inv := by
    intro s' hresult hs' hrun
    obtain ⟨hpc, hsent⟩ := unsent m t cur (by rw [hresult]; simp) (by rw [hresult]; simp)
    apply Carried.after _ hrun
    rw [hpc, hsent]
    exact hs'
  have hcur' : t.entered.curenv = some cur := hran.curenv.trans hcur
  cases htakes.trapped hcur hlt with
  | @returned s s1 _ r hcall hreads heq hres =>
      have hsaved := (hentered.withTf hlive t.tf).memOnly hreads.memOnly
      have hstatus : ∀ e, (s.envs e).envStatus = (m.kernel.envs e).envStatus := by
        intro e
        rw [hreads.memOnly.envs, Turn.saved, ← hran.envs]
        by_cases he : e = cur
        · rw [he, Kernel.setEnv_envs_self]
        · rw [Kernel.setEnv_envs_of_ne _ _ he]
      have hlive' : s.Live cur := by
        rw [Kernel.Live, hstatus, hst]
        exact ⟨hlt, by simp⟩
      obtain ⟨sys, hsys, hret⟩ := (syscall_returned (hreads.memOnly.curenv.trans hcur')
        _ _ _ _ _ _).of_eq heq
      obtain ⟨fl, hfl⟩ := hsaved.env
      have h1 := hsaved.returned hcall hreads hfair hlive' hstatus hsys heq hret
      have h2 := h1.withTf (hret.live hfl hlive') { (s1.envs cur).envTf with
        tfRegs := { (s1.envs cur).envTf.tfRegs with regEax := r } }
      exact (h2.resumed hres).after (curRunning_resumed hres)
  | @left s _ hcall hreads heq =>
      have hsaved := (hentered.withTf hlive t.tf).memOnly hreads.memOnly
      have hlive' : s.Live cur := by
        rw [Kernel.Live, hreads.memOnly.envs, Turn.saved, Kernel.setEnv_envs_self]
        exact hlive
      have hresult : t.result cur = none := by
        simp only [Turn.result, hcall, heq]
      cases (syscall_returned (hreads.memOnly.curenv.trans hcur') _ _ _ _ _ _).of_leave heq with
      | yield hres => exact hnone hresult (hsaved.resumed hres) (curRunning_resumed hres)
      | @destroyed s0 s1 _ hmem hfreed hres =>
          have hlive0 : s0.Live cur := by
            rw [Kernel.Live, hmem.envs]
            exact hlive'
          have h1 := ((hsaved.memOnly hmem).freed hlive0 hfreed).idle
          exact hnone hresult (h1.resumed hres) (curRunning_resumed hres)
  | gone hcall hgone =>
      have hresult : t.result cur = none := by
        simp only [Turn.result, hcall]
      obtain ⟨h1, hrun⟩ := hentered.gone hlive hst' hgone
      exact hnone hresult h1 hrun

/-! ### Steps in `ipc_recv` -/

/-- What the fields of the current environment say. -/
theorem Inv.box (h : m.Inv) (hcur : m.kernel.curenv = some cur) :
  (m.kernel.envs cur).envIpcRecving = false
    ∧ Box (m.kernel.envs cur) (m.pc cur) (m.sent cur) (m.got cur)
  := by
  obtain ⟨hlt, hst⟩ := h.running cur hcur
  have hlive : m.kernel.Live cur := ⟨hlt, by rw [hst]; simp⟩
  exact ⟨h.carried.notRecving hlive (by rw [hst]; simp), h.carried.old cur hlive hlive⟩

/-- A step of the environment `cur` changes only what is remembered of it. -/
theorem Inv.step {pc : RecvPc} {got : List Message} (h : m.Inv)
    (hbox : Box (m.kernel.envs cur) pc (m.sent cur) got) (hpend : Pending (m.sent cur) got) :
  Inv { m with
    got := Function.update m.got cur got
    pc := Function.update m.pc cur pc }
  := by
  refine ⟨?_, h.running⟩
  constructor
  case env => exact h.carried.env
  case old =>
    intro e hlive _
    by_cases he : e = cur
    · simp only [he, Function.update_self]
      exact hbox
    · simp only [Function.update_of_ne he]
      exact h.carried.old e hlive hlive
  case new =>
    intro e hlive hold
    exact (hold hlive).elim
  case pending =>
    intro e hlt
    by_cases he : e = cur
    · simp only [he, Function.update_self]
      exact hpend
    · simp only [Function.update_of_ne he]
      exact h.carried.pending e hlt

/-- The fields of a receiver that is not blocked hold the message it has not received. -/
theorem Box.unread (h : Box env pc l l') (hrecv : env.envIpcRecving = false)
    (hpc : pc ≠ .outside) :
  l = l' ++ [env.message]
  := by
  cases h with
  | idle => exact (hpc rfl).elim
  | blocked hyes =>
      rw [hrecv] at hyes
      cases hyes
  | waiting => rfl
  | gotSender => rfl
  | gotPerm => rfl

/-- What the receiver has read is who sent the message. -/
theorem Box.sender {sender : Word} (h : Box env (.gotSender sender) l l') :
  sender = env.envIpcFrom
  := by
  cases h
  rfl

/-- What the receiver has read is who sent the message, and with which permissions. -/
theorem Box.perm {sender perm : Word} (h : Box env (.gotPerm sender perm) l l') :
  sender = env.envIpcFrom ∧ perm = env.envIpcPerm
  := by
  cases h
  exact ⟨rfl, rfl⟩

/-- A step of the machine keeps the invariant. -/
theorem Inv.next (h : m.Inv) (hstep : m.Step (Fair avail) m') :
  m'.Inv
  := by
  have hsame : ∀ cur, Function.update m.got cur (m.got cur) = m.got :=
    fun cur => Function.update_eq_self cur m.got
  cases hstep with
  | turn hcur hfair htakes => exact h.turn hcur hfair htakes
  | @readSender cur hcur hpc =>
      obtain ⟨hrecv, hbox⟩ := h.box hcur
      have hunread := hbox.unread hrecv (by rw [hpc]; simp)
      have hnext : Box (m.kernel.envs cur) (.gotSender (m.kernel.envs cur).envIpcFrom)
          (m.sent cur) (m.got cur) := by
        rw [hunread]
        exact .gotSender hrecv
      have hpend := h.carried.pending cur (h.running cur hcur).1
      have hinv := h.step hnext hpend
      rw [hsame] at hinv
      exact hinv
  | @readPerm cur sender hcur hpc =>
      obtain ⟨hrecv, hbox⟩ := h.box hcur
      have hunread := hbox.unread hrecv (by rw [hpc]; simp)
      rw [hpc] at hbox
      have hnext : Box (m.kernel.envs cur) (.gotPerm sender (m.kernel.envs cur).envIpcPerm)
          (m.sent cur) (m.got cur) := by
        rw [hunread, hbox.sender]
        exact .gotPerm hrecv
      have hpend := h.carried.pending cur (h.running cur hcur).1
      have hinv := h.step hnext hpend
      rw [hsame] at hinv
      exact hinv
  | @readValue cur sender perm hcur hpc =>
      obtain ⟨hrecv, hbox⟩ := h.box hcur
      have hunread := hbox.unread hrecv (by rw [hpc]; simp)
      rw [hpc] at hbox
      obtain ⟨hsender, hperm⟩ := hbox.perm
      have hread : m.sent cur = m.got cur ++
          [{ value := (m.kernel.envs cur).envIpcValue, sender := sender, perm := perm }] := by
        rw [hunread, hsender, hperm]
        rfl
      rw [← hread]
      exact h.step (.idle hrecv) ⟨[], (List.append_nil _).symm, Nat.zero_le 1⟩

/-! ### Runs -/

/-- What `i386_init` leaves behind: no environment has asked for a message, and one may be
running. -/
structure Started (avail : Finset Nat) (s : Kernel) : Prop where
  wf : Wf avail ∅ (fun _ => 0) s
  running : CurRunning s
  recving : ∀ e, s.Live e → (s.envs e).envIpcRecving = false

/-- What is remembered when the runs start. -/
def fresh (s : Kernel) : Mail where
  kernel := s
  sent := fun _ => []
  got := fun _ => []
  pc := fun _ => .outside

/-- The runs of the machine whose turns have the property `P`. -/
inductive Run (P : Mail → Turn → Nat → Prop) (s : Kernel) : Mail → Prop
  | start : Run P s (fresh s)
  | step {m m' : Mail} (hrun : Run P s m) (hstep : m.Step P m') : Run P s m'

theorem Run.inv (hstart : Started avail s) (hrun : Run (Fair avail) s m) :
  m.Inv
  := by
  induction hrun with
  | start =>
      refine ⟨?_, hstart.running⟩
      constructor
      case env => exact hstart.wf.env
      case old => exact fun e hlive _ => .idle (hstart.recving e hlive)
      case new => exact fun e hlive hold => (hold hlive).elim
      case pending => exact fun e _ => ⟨[], rfl, Nat.zero_le 1⟩
  | step _ hstep ih => exact ih.next hstep

/-! ### Results of sends -/

/-- A live environment has asked for a message that has not come if it is marked so. -/
theorem Inv.blocked_iff (h : m.Inv) {e : Nat} (hlive : m.kernel.Live e) :
  m.Blocked e ↔ (m.kernel.envs e).envIpcRecving = true
  := by
  have hbox := h.carried.old e hlive hlive
  constructor
  · rintro ⟨hpc, hsent⟩
    by_contra hno
    rw [Bool.not_eq_true] at hno
    have hunread := hbox.unread hno (by rw [hpc]; simp)
    rw [hsent] at hunread
    have hlen := congrArg List.length hunread
    simp at hlen
  · intro hyes
    exact (hbox.notRunnable hyes).2

/-- A send is refused if the receiver has not asked for a message, and only then. -/
theorem Inv.refused (h : m.Inv) {t : Turn} {r : Word} (hcur : m.kernel.curenv = some cur)
    (htakes : t.Takes m.kernel s') (hresult : t.result cur = some (.SYS_ipc_try_send, r)) :
  r = -E_IPC_NOT_RECV ↔
    ∃ e, (t.saved cur).findEnv cur t.tf.tfRegs.regEdx false = some e ∧ ¬ m.Blocked e
  := by
  obtain ⟨hlt, hst⟩ := h.running cur hcur
  have hran : MemOnly m.kernel t.entered := by
    rw [htakes.ran.quiet]
    exact ⟨rfl, rfl, rfl⟩
  cases htakes.trapped hcur hlt with
  | gone hcall =>
      simp only [Turn.result, hcall] at hresult
      cases hresult
  | left hcall _ heq =>
      simp only [Turn.result, hcall, heq] at hresult
      cases hresult
  | @returned s s1 _ r' hcall hreads heq =>
      have henvs : ∀ e, (s.envs e).envStatus = (m.kernel.envs e).envStatus
          ∧ (s.envs e).envIpcRecving = (m.kernel.envs e).envIpcRecving := by
        intro e
        rw [hreads.memOnly.envs, Turn.saved, ← hran.envs]
        by_cases he : e = cur
        · rw [he, Kernel.setEnv_envs_self]
          exact ⟨rfl, rfl⟩
        · rw [Kernel.setEnv_envs_of_ne _ _ he]
          exact ⟨rfl, rfl⟩
      have hlive : s.Live cur := by
        rw [Kernel.Live, (henvs cur).1, hst]
        exact ⟨hlt, by simp⟩
      have hfindEq : (t.saved cur).findEnv cur t.tf.tfRegs.regEdx false
          = s.findEnv cur t.tf.tfRegs.regEdx false := by
        rw [Kernel.findEnv, Kernel.findEnv, hreads.memOnly.envs]
      have hblocked : ∀ {e}, s.findEnv cur t.tf.tfRegs.regEdx false = some e →
          (m.Blocked e ↔ (s.envs e).envIpcRecving = true) := by
        intro e hfind
        have helive := findEnv_live hlive hfind
        rw [Kernel.Live, (henvs e).1] at helive
        rw [(henvs e).2]
        exact h.blocked_iff helive
      have hcur' : s.curenv = some cur := (hreads.memOnly.curenv.trans hran.curenv).trans hcur
      obtain ⟨sys, hsys, hret⟩ := (syscall_returned hcur' _ _ _ _ _ _).of_eq heq
      simp only [Turn.result, hcall, heq, hsys, Option.map_some, Option.some.injEq,
        Prod.mk.injEq] at hresult
      obtain ⟨rfl, rfl⟩ := hresult
      rw [hfindEq]
      generalize hfour : Syscall.SYS_ipc_try_send = sys at hret
      cases hret with
      | quiet _ hsend =>
          rw [(hsend hfour.symm).2]
          refine exists_congr fun e => and_congr_right fun hfind => ?_
          rw [hblocked hfind, Bool.not_eq_true]
      | @sent e s2 hfind hrecv =>
          constructor
          · intro hno
            exact absurd hno (by decide)
          · rintro ⟨e', hfind', hno⟩
            rw [hfind] at hfind'
            obtain rfl := Option.some.inj hfind'
            exact (hno ((hblocked hfind).mpr hrecv)).elim
      | created _ hsys' =>
          subst hfour
          simp at hsys'
      | status => cases hfour
      | trapframe => cases hfour
      | pgfaultUpcall => cases hfour
      | dying => cases hfour
      | freed => cases hfour
      | received => cases hfour

/-! ### Delivery -/

/-- Messages are received once and in the order they were sent, and a send is refused
exactly if the receiver, though it is there, has not asked for a message. -/
structure ExactlyOnce (m : Mail) : Prop where
  received : ∀ e < NENV, ∀ (k : Nat) (msg : Message),
    (m.got e)[k]? = some msg → (m.sent e)[k]? = some msg
  pending : ∀ e < NENV,
    (m.got e).length ≤ (m.sent e).length ∧ (m.sent e).length ≤ (m.got e).length + 1
  refused : ∀ (t : Turn) (cur : Nat) (s' : Kernel) (r : Word), m.kernel.curenv = some cur →
    t.Takes m.kernel s' → t.result cur = some (.SYS_ipc_try_send, r) →
    (r = -E_IPC_NOT_RECV ↔
      ∃ e, (t.saved cur).findEnv cur t.tf.tfRegs.regEdx false = some e ∧ ¬ m.Blocked e)

theorem Pending.getElem? (h : Pending l l') {k : Nat} {msg : Message}
    (hmsg : l'[k]? = some msg) :
  l[k]? = some msg
  := by
  obtain ⟨pending, rfl, -⟩ := h
  obtain ⟨hlt, -⟩ := List.getElem?_eq_some_iff.mp hmsg
  rw [List.getElem?_append_left hlt]
  exact hmsg

theorem Pending.length (h : Pending l l') :
  l'.length ≤ l.length ∧ l.length ≤ l'.length + 1
  := by
  obtain ⟨pending, rfl, hlen⟩ := h
  rw [List.length_append]
  omega

/-- Creating environments makes none wait for messages. -/
theorem noneRecving_envAlloc (h : ∀ e, s.Live e → (s.envs e).envIpcRecving = false) :
  (envAlloc 0).MayEnd s (fun _ s' => ∀ e, s'.Live e → (s'.envs e).envIpcRecving = false)
    (fun _ => False)
  := by
  apply (envAllocType_made .ENV_TYPE_USER 0).mono _ (fun _ h => h)
  rintro _ s' (⟨e0, -, hmade⟩ | ⟨-, -, hmem⟩) e hlive
  · obtain ⟨p, henvs⟩ := hmade.envs
    by_cases he : e = e0
    · rw [he, henvs, Function.update_self]
      rfl
    · rw [Kernel.Live, henvs, Function.update_of_ne he] at hlive
      rw [henvs, Function.update_of_ne he]
      exact h e hlive
  · rw [Kernel.Live, hmem.envs] at hlive
    rw [hmem.envs]
    exact h e hlive

/-- Running one of the first environments is how a run starts. -/
theorem firstEnvs_started {n : Nat} (heq : firstEnvs (bootKernel n) = .ok ((), s))
    (htwo : TwoEnvs avail s) :
  Started avail (s.running 0)
  := by
  obtain ⟨hlive0, -⟩ := htwo.live 0 (by decide)
  have hnone : firstEnvs.MayEnd (bootKernel n)
      (fun _ s' => ∀ e, s'.Live e → (s'.envs e).envIpcRecving = false) (fun _ => False) := by
    obtain ⟨s0, heq0, -, hfree⟩ := envInit_ok (bootKernel n)
    have h0 : ∀ e, s0.Live e → (s0.envs e).envIpcRecving = false :=
      fun e hlive => (hlive.2 (hfree e hlive.1).1).elim
    rw [firstEnvs, mayEnd_of_bind_eq heq0, mayEnd_bind]
    apply (noneRecving_envAlloc h0).mono _ (fun _ h => h)
    intro _ s1 h1
    rw [mayEnd_bind]
    apply (noneRecving_envAlloc h1).mono _ (fun _ h => h)
    exact fun _ s2 h2 => mayEnd_pure _ |>.mpr h2
  constructor
  case wf => exact htwo.wf.running hlive0
  case running => exact curRunning_running (by decide)
  case recving =>
    intro e hlive
    obtain ⟨st, cpu, runs, henv, hfree, -⟩ := s.running_envs 0 e
    rw [Kernel.Live, henv] at hlive
    rw [henv]
    by_cases hst : (s.envs e).envStatus = .ENV_FREE
    · have he : e ≠ 0 := by
        rintro rfl
        exact hlive0.2 hst
      have hsame := congrArg Env.envStatus (s.running_envs_of_free hst he)
      rw [henv] at hsame
      exact (hlive.2 (hsame.trans hst)).elim
    · exact hnone.of_eq heq e ⟨hlive.1, hst⟩

/-! ### Two environments -/

/-- The registers with which an environment makes the system call with the number `no`. -/
def callTf (no a1 a2 a3 : Word) : Trapframe :=
  { initialTf with
    tfTrapno := T_SYSCALL
    tfRegs := { regEax := no, regEdx := a1, regEcx := a2, regEbx := a3 } }

/-- The turn in which an environment only makes a system call. -/
def callTurn (s : Kernel) (no a1 a2 a3 : Word) : Turn where
  entered := s
  tf := callTf no a1 a2 a3

/-- Two environments of users, of which `c` is the current one, and `o` waits for a message if
`waits`. -/
structure Couple (avail : Finset Nat) (s : Kernel) (c o : Nat) (stc sto : EnvStatus)
    (waits : Bool) : Prop extends Pair s c o stc sto where
  waiting : (s.envs o).envIpcRecving = waits
  live : stc ≠ .ENV_FREE ∧ sto ≠ .ENV_FREE
  users : ∀ e < 2, (s.envs e).envType = .ENV_TYPE_USER ∧ (s.envs e).envPgdir ≠ none
    ∧ (s.envs e).envTf.privilege = initialTf.privilege
  fits : s.Fits avail (fun _ => 0)

theorem fits_of_sameStore (h : s.Fits avail (fun _ => 0)) (hsame : SameStore s s') :
  s'.Fits avail (fun _ => 0)
  := by
  intro p hp
  rw [hsame.refs]
  exact h p hp

namespace Couple

variable {c o : Nat} {stc sto : EnvStatus} {waits : Bool}

section

variable (h : Couple avail s c o stc sto waits)
include h

/-- The environments of a couple are there. -/
theorem there {e : Nat} (he : e < 2) :
  (s.envs e).envStatus ≠ .ENV_FREE
  := by
  obtain rfl | rfl := h.cases he
  · rw [h.first.2]
    exact h.live.1
  · rw [h.second.2]
    exact h.live.2

/-- Changing what one of the two does leaves it one of a user. -/
theorem setUser {e : Nat} (he : e < 2) {env : Env} (htype : env.envType = (s.envs e).envType)
    (hpg : env.envPgdir = (s.envs e).envPgdir)
    (hpriv : env.envTf.privilege = (s.envs e).envTf.privilege) (hlive : env.envStatus ≠ .ENV_FREE) :
  (∀ e' < 2, ((s.setEnv e env).envs e').envType = .ENV_TYPE_USER
      ∧ ((s.setEnv e env).envs e').envPgdir ≠ none
      ∧ ((s.setEnv e env).envs e').envTf.privilege = initialTf.privilege)
    ∧ (s.setEnv e env).Fits avail (fun _ => 0)
  := by
  constructor
  · intro e' he'
    by_cases hee : e' = e
    · rw [hee, Kernel.setEnv_envs_self, htype, hpg, hpriv]
      exact h.users e he
    · rw [Kernel.setEnv_envs_of_ne _ _ hee]
      exact h.users e' he'
  · apply fits_of_sameStore h.fits
    apply SameStore.setEnv
    rw [Kernel.setEnv_pgdir, Kernel.pgdir, if_neg hlive, if_neg (h.there he), hpg]

/-- Changing what the current environment does. -/
theorem setFirst {env : Env} {stc' : EnvStatus} (htype : env.envType = (s.envs c).envType)
    (hpg : env.envPgdir = (s.envs c).envPgdir) (hid : env.envId = (s.envs c).envId)
    (hpriv : env.envTf.privilege = (s.envs c).envTf.privilege) (hst : env.envStatus = stc')
    (hlive : stc' ≠ .ENV_FREE) :
  Couple avail (s.setEnv c env) c o stc' sto waits
  := by
  obtain ⟨husers, hfits⟩ := h.setUser h.lt.1 htype hpg hpriv (by rw [hst]; exact hlive)
  refine ⟨h.toPair.setFirst htype hid hst, ?_, ⟨hlive, h.live.2⟩, husers, hfits⟩
  rw [Kernel.setEnv_envs_of_ne _ _ h.lt.2.2.symm]
  exact h.waiting

/-- Changing what the other environment does. -/
theorem setSecond {env : Env} {sto' : EnvStatus} {waits' : Bool} (htype : env.envType = (s.envs o).envType)
    (hpg : env.envPgdir = (s.envs o).envPgdir) (hid : env.envId = (s.envs o).envId)
    (hpriv : env.envTf.privilege = (s.envs o).envTf.privilege) (hst : env.envStatus = sto')
    (hwaits : env.envIpcRecving = waits') (hlive : sto' ≠ .ENV_FREE) :
  Couple avail (s.setEnv o env) c o stc sto' waits'
  := by
  obtain ⟨husers, hfits⟩ := h.setUser h.lt.2.1 htype hpg hpriv (by rw [hst]; exact hlive)
  refine ⟨h.toPair.setSecond htype hid hst, ?_, ⟨h.live.1, hlive⟩, husers, hfits⟩
  rw [Kernel.setEnv_envs_self]
  exact hwaits

/-- Going on with one of the two. -/
theorem goOn {e e' : Nat} {st st' : EnvStatus} (hpair : Pair (s.running e) e e' st st')
    (hlive : st ≠ .ENV_FREE ∧ st' ≠ .ENV_FREE) :
  Couple avail (s.running e) e e' st st' (s.envs e').envIpcRecving
  := by
  have he := hpair.lt.1
  have hlivee : s.Live e := ⟨by simp only [NENV]; omega, h.there he⟩
  refine ⟨hpair, ?_, hlive, ?_, fits_of_sameStore h.fits (.running hlivee)⟩
  · obtain ⟨_, _, _, henv, -⟩ := s.running_envs e e'
    rw [henv]
  · intro e'' he''
    obtain ⟨_, _, _, henv, -⟩ := s.running_envs e e''
    rw [henv]
    exact h.users e'' he''

/-- The current environment goes on. -/
theorem stay (hstc : stc = .ENV_RUNNING) :
  (envRun c : Prog Kernel Unit) s = .error (.leave (s.running c))
    ∧ Couple avail (s.running c) c o .ENV_RUNNING sto waits
  := by
  refine ⟨envRun_eq (h.users c h.lt.1).2.1, ?_⟩
  have hgo := h.goOn (h.toPair.stay hstc) ⟨by simp, h.live.2⟩
  rw [h.waiting] at hgo
  exact hgo

/-- The current environment is given the value of its system call. -/
theorem returning (r : Word) :
  Couple avail (s.returning c r) c o stc sto waits
  := h.setFirst rfl rfl rfl rfl h.first.2 h.live.1

end

/-- The other environment runs when it is the only one that may. -/
theorem switch {waits' : Bool} (h : Couple avail s c o stc .ENV_RUNNABLE waits)
    (hstc : stc ≠ .ENV_RUNNABLE) (hwaits : (s.envs c).envIpcRecving = waits') :
  (schedYield : Prog Kernel Unit) s = .error (.leave (s.running o))
    ∧ Couple avail (s.running o) o c .ENV_RUNNING
      (if stc = .ENV_RUNNING then .ENV_RUNNABLE else stc) waits'
  := by
  obtain ⟨hyield, hpair⟩ := h.toPair.switch hstc (h.users o h.lt.2.1).2.1
  refine ⟨hyield, ?_⟩
  rw [← hwaits]
  apply h.goOn hpair
  refine ⟨by simp, ?_⟩
  split
  · simp
  · exact h.live.1

/-! ### What they do -/

/-- The state in which the current environment makes a system call. -/
theorem saved (h : Couple avail s c o .ENV_RUNNING sto waits) (tf : Trapframe)
    (hpriv : tf.privilege = initialTf.privilege) :
  Couple avail (s.setEnv c { s.envs c with envTf := tf }) c o .ENV_RUNNING sto waits
  := by
  have hpriv' : tf.privilege = (s.envs c).envTf.privilege := by
    rw [(h.users c h.lt.1).2.2]
    exact hpriv
  exact h.setFirst rfl rfl rfl hpriv' h.first.2 h.live.1

theorem notGuest (h : Couple avail s c o stc sto waits) :
  (s.envs c).envType ≠ .ENV_TYPE_GUEST
  := by
  rw [(h.users c h.lt.1).1]
  simp

/-- Switching to an environment keeps the messages. -/
theorem running_message (s : Kernel) (e e' : Nat) :
  ((s.running e).envs e').message = (s.envs e').message
  := by
  obtain ⟨_, _, _, henv, -⟩ := s.running_envs e e'
  rw [henv]
  rfl

section Turns

variable (h : Couple avail s c o .ENV_RUNNING sto waits) {tf : Trapframe}
  (hno : tf.tfTrapno = T_SYSCALL) (hpriv : tf.privilege = initialTf.privilege)
include h hno hpriv

/-- A system call after which the environment goes on, or the other one. -/
theorem takes {s' : Kernel} (heq : trap (fun _ => 0) 0 tf s = .error (.leave s')) :
  Turn.Takes { entered := s, tf := tf } s s'
    ∧ Turn.called { entered := s, tf := tf } c = some (s.setEnv c { s.envs c with envTf := tf })
  := ⟨takes_of_trap h.curenv (h.users c h.lt.1).2.2 hpriv heq,
    Turn.called_eq h.first.2 h.notGuest hno⟩

/-- A system call that returns. -/
theorem answers {sys : Syscall} {r : Word} {s1 s' : Kernel}
    (hsys : Syscall.ofWord tf.tfRegs.regEax = some sys)
    (heq : syscall tf.tfRegs.regEax tf.tfRegs.regEdx tf.tfRegs.regEcx tf.tfRegs.regEbx
      tf.tfRegs.regEdi tf.tfRegs.regEsi (s.setEnv c { s.envs c with envTf := tf }) = .ok (r, s1))
    (hcur : s1.curenv = some c)
    (hgo : (if (s1.envs c).envStatus = .ENV_RUNNING then envRun c
      else schedYield : Prog Kernel Unit) (s1.returning c r) = .error (.leave s')) :
  Turn.Takes { entered := s, tf := tf } s s'
    ∧ Turn.result { entered := s, tf := tf } c = some (sys, r)
  := by
  have htrap : trap (fun _ => 0) 0 tf s = .error (.leave s') :=
    (trap_returned h.curenv h.first.2 h.notGuest hno heq hcur).trans hgo
  obtain ⟨htakes, hcalled⟩ := h.takes hno hpriv htrap
  refine ⟨htakes, ?_⟩
  have heq' : Turn.syscall { entered := s, tf := tf } (s.setEnv c { s.envs c with envTf := tf })
      = .ok (r, s1) := heq
  simp only [Turn.result, hcalled, heq', hsys, Option.map_some]

end Turns

/-- The current environment asks for a message, and the other one runs. -/
theorem asks (h : Couple avail s c o .ENV_RUNNING .ENV_RUNNABLE waits) :
  ∃ s', (callTurn s 13 (BitVec.ofNat 32 UTOP) 0 0).Takes s s'
    ∧ (callTurn s 13 (BitVec.ofNat 32 UTOP) 0 0).result c = some (.SYS_ipc_recv, 0)
    ∧ Couple avail s' o c .ENV_RUNNING .ENV_NOT_RUNNABLE true
  := by
  obtain ⟨tf, htf⟩ : ∃ tf, tf = callTf 13 (BitVec.ofNat 32 UTOP) 0 0 := ⟨_, rfl⟩
  have hno : tf.tfTrapno = T_SYSCALL := by rw [htf]; rfl
  have hpriv : tf.privilege = initialTf.privilege := by rw [htf]; rfl
  have hsaved := h.saved tf hpriv
  obtain ⟨s1, hs1⟩ : ∃ s1, s1 = s.setEnv c { s.envs c with envTf := tf } := ⟨_, rfl⟩
  rw [← hs1] at hsaved
  obtain ⟨s2, hs2⟩ : ∃ s2, s2 = s1.setEnv c { s1.envs c with
      envIpcDstva := BitVec.ofNat 32 UTOP
      envIpcRecving := true
      envIpcValue := 0
      envIpcFrom := 0
      envIpcPerm := 0
      envStatus := .ENV_NOT_RUNNABLE } := ⟨_, rfl⟩
  have hsys : syscall tf.tfRegs.regEax tf.tfRegs.regEdx tf.tfRegs.regEcx tf.tfRegs.regEbx
      tf.tfRegs.regEdi tf.tfRegs.regEsi s1 = .ok (0, s2) := by
    rw [htf]
    change sysIpcRecv (BitVec.ofNat 32 UTOP) s1 = _
    rw [sysIpcRecv, if_neg (by decide), bind_of_eq (curenv_eq hsaved.curenv), modify_bind, ← hs2]
    rfl
  have hasked : Couple avail s2 c o .ENV_NOT_RUNNABLE .ENV_RUNNABLE waits := by
    rw [hs2]
    exact hsaved.setFirst rfl rfl rfl rfl rfl (by simp)
  have hrecv : ((s2.returning c 0).envs c).envIpcRecving = true := by
    rw [Kernel.returning, Kernel.withTf, Kernel.setEnv_envs_self, hs2, Kernel.setEnv_envs_self]
  obtain ⟨hyield, hother⟩ := (hasked.returning 0).switch (by simp) hrecv
  rw [if_neg (by simp)] at hother
  rw [hs1] at hsys
  obtain ⟨htakes, hresult⟩ := h.answers hno hpriv
    (show Syscall.ofWord tf.tfRegs.regEax = some .SYS_ipc_recv by rw [htf]; rfl) hsys
    hasked.curenv (by rw [if_neg (by rw [hasked.first.2]; simp)]; exact hyield)
  rw [callTurn, ← htf]
  exact ⟨_, htakes, hresult, hother⟩

/-- The current environment sends a message to the other one, which waits for it. -/
theorem tells (h : Couple avail s c o .ENV_RUNNING .ENV_NOT_RUNNABLE true) (value : Word) :
  ∃ s', (callTurn s 12 (idOf o) value (BitVec.ofNat 32 UTOP)).Takes s s'
    ∧ (callTurn s 12 (idOf o) value (BitVec.ofNat 32 UTOP)).result c
      = some (.SYS_ipc_try_send, 0)
    ∧ (∀ e, sending (callTurn s 12 (idOf o) value (BitVec.ofNat 32 UTOP)) c e
      = if e = o then [{ value := value, sender := idOf c, perm := 0 }] else [])
    ∧ Couple avail s' c o .ENV_RUNNING .ENV_RUNNABLE false
    ∧ (s'.envs o).message = { value := value, sender := idOf c, perm := 0 }
  := by
  obtain ⟨tf, htf⟩ : ∃ tf, tf = callTf 12 (idOf o) value (BitVec.ofNat 32 UTOP) := ⟨_, rfl⟩
  have hno : tf.tfTrapno = T_SYSCALL := by rw [htf]; rfl
  have hpriv : tf.privilege = initialTf.privilege := by rw [htf]; rfl
  obtain ⟨hc, ho, hne⟩ := h.lt
  have hsaved := h.saved tf hpriv
  obtain ⟨s1, hs1⟩ : ∃ s1, s1 = s.setEnv c { s.envs c with envTf := tf } := ⟨_, rfl⟩
  rw [← hs1] at hsaved
  have hfind : s1.findEnv c (idOf o) false = some o := by
    have henvx : ENVX (idOf o) = o ∧ idOf o ≠ 0 := by
      obtain ⟨-, rfl⟩ | ⟨-, rfl⟩ := h.slots
      · decide
      · decide
    rw [Kernel.findEnv, if_neg henvx.2, henvx.1, if_neg, if_neg (by simp)]
    rintro (hfree | hid)
    · rw [hsaved.second.2] at hfree
      cases hfree
    · exact hid (hsaved.ids o ho)
  have hsys : syscall tf.tfRegs.regEax tf.tfRegs.regEdx tf.tfRegs.regEcx tf.tfRegs.regEbx
      tf.tfRegs.regEdi tf.tfRegs.regEsi s1 = .ok (0, s1.delivered c o value 0) := by
    rw [htf]
    change sysIpcTrySend (idOf o) value (BitVec.ofNat 32 UTOP) 0 s1 = _
    rw [sysIpcTrySend, bind_of_eq (envid2env_eq hsaved.curenv _ _), hfind]
    simp only
    rw [get_bind, if_neg (by rw [hsaved.waiting]; simp), if_neg]
    · exact ipcReceive_eq hsaved.curenv o value 0
    · rintro ⟨-, hlt⟩
      exact absurd hlt (by decide)
  have hsent : Couple avail (s1.delivered c o value 0) c o .ENV_RUNNING .ENV_RUNNABLE false := by
    rw [Kernel.delivered]
    exact hsaved.setSecond rfl rfl rfl rfl rfl rfl (by simp)
  obtain ⟨hgo, hstay⟩ := (hsent.returning 0).stay rfl
  rw [hs1] at hsys
  obtain ⟨htakes, hresult⟩ := h.answers hno hpriv
    (show Syscall.ofWord tf.tfRegs.regEax = some .SYS_ipc_try_send by rw [htf]; rfl) hsys
    (hs1 ▸ hsent.curenv) (by rw [← hs1, if_pos hsent.first.2]; exact hgo)
  have hid : (s1.envs c).envId = idOf c := hsaved.ids c hc
  have hsavedEq : Turn.saved { entered := s, tf := tf } c = s1 := hs1.symm
  rw [callTurn, ← htf]
  refine ⟨_, htakes, hresult, ?_, hstay, ?_⟩
  · intro e
    have hedx : tf.tfRegs.regEdx = idOf o := by
      rw [htf]
      rfl
    rw [sending, hresult, hsavedEq, hedx, hfind, hid]
    by_cases he : e = o
    · rw [if_pos ⟨rfl, congrArg some he.symm⟩, if_pos he, htf]
      rfl
    · rw [if_neg (fun hsame => he (Option.some.inj hsame.2).symm), if_neg he]
  · rw [running_message, Kernel.returning, Kernel.withTf, Kernel.setEnv_envs_of_ne _ _ hne.symm,
      Kernel.delivered, Kernel.setEnv_envs_self, hid]
    rfl

/-- The current environment lets the other one run. -/
theorem yields (h : Couple avail s c o .ENV_RUNNING .ENV_RUNNABLE waits) :
  ∃ s', (callTurn s 11 0 0 0).Takes s s'
    ∧ (callTurn s 11 0 0 0).result c = none
    ∧ Couple avail s' o c .ENV_RUNNING .ENV_RUNNABLE (s.envs c).envIpcRecving
    ∧ (s'.envs o).message = (s.envs o).message
  := by
  obtain ⟨tf, htf⟩ : ∃ tf, tf = callTf 11 0 0 0 := ⟨_, rfl⟩
  have hno : tf.tfTrapno = T_SYSCALL := by rw [htf]; rfl
  have hpriv : tf.privilege = initialTf.privilege := by rw [htf]; rfl
  have hsaved := h.saved tf hpriv
  obtain ⟨hyield, hother⟩ := hsaved.switch (by simp)
    (show _ = (s.envs c).envIpcRecving by rw [Kernel.setEnv_envs_self])
  rw [if_pos rfl] at hother
  obtain ⟨s2, hs2⟩ : ∃ s2, s2 = (s.setEnv c { s.envs c with envTf := tf }).running o := ⟨_, rfl⟩
  rw [← hs2] at hyield hother
  have hsys : syscall tf.tfRegs.regEax tf.tfRegs.regEdx tf.tfRegs.regEcx tf.tfRegs.regEbx
      tf.tfRegs.regEdi tf.tfRegs.regEsi (s.setEnv c { s.envs c with envTf := tf })
      = .error (.leave s2) := by
    have heax : tf.tfRegs.regEax = 11 := by
      rw [htf]
      rfl
    rw [heax]
    exact bind_of_error hyield
  have htrap : trap (fun _ => 0) 0 tf s = .error (.leave s2) :=
    trap_left h.curenv h.first.2 h.notGuest hno hsys
  obtain ⟨htakes, hcalled⟩ := h.takes hno hpriv htrap
  have hsys' : Turn.syscall { entered := s, tf := tf } (s.setEnv c { s.envs c with envTf := tf })
      = .error (.leave s2) := hsys
  rw [callTurn, ← htf]
  refine ⟨s2, htakes, ?_, hother, ?_⟩
  · simp only [Turn.result, hcalled, hsys']
  · rw [hs2, running_message, Kernel.setEnv_envs_of_ne _ _ h.lt.2.2.symm]

end Couple

/-- The first two environments, when one of them runs. -/
theorem firstEnvs_couple (htwo : TwoEnvs avail s) :
  Couple avail (s.running 0) 0 1 .ENV_RUNNING .ENV_RUNNABLE false
  := by
  obtain ⟨hlive0, -⟩ := htwo.live 0 (by decide)
  have hrun : ∀ e, ∃ st cpu runs, (s.running 0).envs e = { s.envs e with
      envStatus := st
      envCpunum := cpu
      envRuns := runs } := by
    intro e
    obtain ⟨st, cpu, runs, henv, -⟩ := s.running_envs 0 e
    exact ⟨st, cpu, runs, henv⟩
  have hpair : Pair (s.running 0) 0 1 .ENV_RUNNING .ENV_RUNNABLE := by
    constructor
    case slots => exact .inl ⟨rfl, rfl⟩
    case curenv => rfl
    case first =>
      obtain ⟨_, _, _, henv⟩ := hrun 0
      refine ⟨?_, by simp only [Kernel.running, Kernel.setEnv, Function.update_self]⟩
      rw [henv, (htwo.ready 0 (by decide)).1]
      simp
    case second =>
      obtain ⟨_, _, _, henv⟩ := hrun 1
      constructor
      · rw [henv, (htwo.ready 1 (by decide)).1]
        simp
      · simp only [Kernel.running, Kernel.setEnv, Kernel.preempted, htwo.curenv]
        rw [Function.update_of_ne (by decide)]
        exact (htwo.ready 1 (by decide)).2
    case ids =>
      intro e he
      obtain ⟨_, _, _, henv⟩ := hrun e
      rw [henv]
      exact (htwo.live e he).2.1
    case others =>
      intro e he hle
      rw [Kernel.running_envs_of_free (htwo.others e he hle) (by omega)]
      exact htwo.others e he hle
  refine ⟨hpair, ?_, by simp, ?_, ?_⟩
  · obtain ⟨_, _, _, henv⟩ := hrun 1
    rw [henv]
    exact (htwo.live 1 (by decide)).2.2.2
  · intro e he
    obtain ⟨_, _, _, henv⟩ := hrun e
    obtain ⟨hlive, -, htf, -⟩ := htwo.live e he
    obtain ⟨_, hfl⟩ := htwo.wf.env
    rw [henv]
    exact ⟨(htwo.ready e he).1, hfl.pgdir e hlive, congrArg Trapframe.privilege htf⟩
  · apply Ledger.fits_of_mappings (htwo.wf.running hlive0)
    rw [Ledger.mappings_eq_zero_iff, Kernel.running_ptes hlive0]
    intro a
    rw [htwo.unmapped a, refOf_zero]

/-! ### What is remembered of them -/

/-- How far the environment `e` has come, and the messages sent to it and received by it. -/
def trace (m : Mail) (e : Nat) : RecvPc × List Message × List Message :=
  (m.pc e, m.sent e, m.got e)

/-- What is remembered of an environment that is there. -/
theorem after_trace (m : Mail) (t : Turn) (cur : Nat) (s' : Kernel) {e : Nat}
    (hlive : (m.kernel.envs e).envStatus ≠ .ENV_FREE) :
  (m.after t cur s').trace e = (m.pcAfter t cur e, m.sent e ++ sending t cur e, m.got e)
  := by simp only [trace, after, hlive, false_and, if_false]

/-- A system call of no result sends nothing and does not ask for a message. -/
theorem after_trace_of_none {t : Turn} (hnone : t.result cur = none) {e : Nat}
    (hlive : (m.kernel.envs e).envStatus ≠ .ENV_FREE) :
  (m.after t cur s').trace e = m.trace e
  := by
  rw [after_trace m t cur s' hlive, pcAfter, sending, hnone, if_neg (by simp), if_neg (by simp),
    List.append_nil]
  rfl

/-- A turn in which an environment only makes a system call other than `sys_env_set_status`. -/
theorem statusKept_call {no a1 a2 a3 : Word} (hno : Syscall.ofWord no ≠ some .SYS_env_set_status) :
  m.StatusKept (callTurn s no a1 a2 a3) cur
  := fun _ _ _ hsys _ => (hno hsys).elim

/-- Such a turn is fair, if the last message was read. -/
theorem fair_call {no a1 a2 a3 : Word} (hno : Syscall.ofWord no ≠ some .SYS_env_set_status)
    (hpc : m.pc cur ≠ .outside → (callTurn s no a1 a2 a3).result cur ≠ some (.SYS_ipc_recv, 0))
    (hfits : m.kernel.Fits avail (fun _ => 0)) :
  Fair avail m (callTurn s no a1 a2 a3) cur
  := by
  constructor
  case recv => exact hpc
  case status => exact statusKept_call hno
  case modest =>
    intro _ _ _ _ _
    change (0 : Word).toNat < 4096
    decide
  case fits => exact hfits

section Steps

variable {P : Mail → Turn → Nat → Prop} {c o : Nat} {sto : EnvStatus} {waits : Bool}

/-- The current environment asks for a message. -/
theorem Couple.step_asks (h : Couple avail m.kernel c o .ENV_RUNNING .ENV_RUNNABLE waits)
    (hP : P m (callTurn m.kernel 13 (BitVec.ofNat 32 UTOP) 0 0) c) :
  ∃ m', m.Step P m' ∧ Couple avail m'.kernel o c .ENV_RUNNING .ENV_NOT_RUNNABLE true
    ∧ m'.trace c = (.waiting, m.sent c, m.got c) ∧ m'.trace o = m.trace o
  := by
  obtain ⟨hc, ho, hne⟩ := h.lt
  obtain ⟨s', htakes, hresult, hcouple⟩ := h.asks
  refine ⟨_, .turn h.curenv hP htakes, hcouple, ?_, ?_⟩
  · rw [after_trace _ _ _ _ (h.there hc), pcAfter, sending, hresult, if_pos ⟨rfl, rfl⟩,
      if_neg (by simp), List.append_nil]
  · rw [after_trace _ _ _ _ (h.there ho), pcAfter, sending, hresult,
      if_neg (fun hsame => hne hsame.1.symm), if_neg (by simp), List.append_nil]
    rfl

/-- The current environment sends a message to the other one, which waits for it. -/
theorem Couple.step_tells (h : Couple avail m.kernel c o .ENV_RUNNING .ENV_NOT_RUNNABLE true)
    {value : Word}
    (hP : P m (callTurn m.kernel 12 (idOf o) value (BitVec.ofNat 32 UTOP)) c) :
  ∃ m', m.Step P m' ∧ Couple avail m'.kernel c o .ENV_RUNNING .ENV_RUNNABLE false
    ∧ m'.trace c = m.trace c
    ∧ m'.trace o
      = (m.pc o, m.sent o ++ [{ value := value, sender := idOf c, perm := 0 }], m.got o)
    ∧ (m'.kernel.envs o).message = { value := value, sender := idOf c, perm := 0 }
  := by
  obtain ⟨hc, ho, hne⟩ := h.lt
  obtain ⟨s', htakes, hresult, hsending, hcouple, hmessage⟩ := h.tells value
  refine ⟨_, .turn h.curenv hP htakes, hcouple, ?_, ?_, hmessage⟩
  · rw [after_trace _ _ _ _ (h.there hc), pcAfter, hsending, hresult, if_neg (by simp),
      if_neg hne, List.append_nil]
    rfl
  · rw [after_trace _ _ _ _ (h.there ho), pcAfter, hsending, hresult, if_neg (by simp),
      if_pos rfl]

/-- The current environment lets the other one run. -/
theorem Couple.step_yields (h : Couple avail m.kernel c o .ENV_RUNNING .ENV_RUNNABLE waits)
    (hP : P m (callTurn m.kernel 11 0 0 0) c) :
  ∃ m', m.Step P m' ∧ Couple avail m'.kernel o c .ENV_RUNNING .ENV_RUNNABLE
      (m.kernel.envs c).envIpcRecving
    ∧ m'.trace c = m.trace c ∧ m'.trace o = m.trace o
    ∧ (m'.kernel.envs o).message = (m.kernel.envs o).message
  := by
  obtain ⟨hc, ho, -⟩ := h.lt
  obtain ⟨s', htakes, hresult, hcouple, hmessage⟩ := h.yields
  refine ⟨_, .turn h.curenv hP htakes, hcouple, ?_, ?_, hmessage⟩
  · exact after_trace_of_none hresult (h.there hc)
  · exact after_trace_of_none hresult (h.there ho)

/-- The current environment reads the message it asked for. -/
theorem Run.reads {l l' : List Message} (hrun : Run P s m) (hcur : m.kernel.curenv = some cur)
    (htrace : m.trace cur = (.waiting, l, l')) :
  ∃ m', Run P s m' ∧ m'.kernel = m.kernel
    ∧ m'.trace cur = (.outside, l, l' ++ [(m.kernel.envs cur).message])
  := by
  simp only [trace, Prod.mk.injEq] at htrace
  obtain ⟨hpc, rfl, rfl⟩ := htrace
  have h1 := hrun.step (.readSender hcur hpc)
  have h2 := h1.step (.readPerm hcur (Function.update_self _ _ _))
  have h3 := h2.step (.readValue hcur (Function.update_self _ _ _))
  refine ⟨_, h3, rfl, ?_⟩
  simp only [trace, Function.update_self]
  rfl

end Steps

/-- Two environments run after boot: one asks for a message and the other one sends it. -/
theorem asked_told {P : Mail → Turn → Nat → Prop} (value : Word)
    (hasks : ∀ m cur, m.pc cur = .outside → m.kernel.Fits (bootAvail 2) (fun _ => 0) →
      P m (callTurn m.kernel 13 (BitVec.ofNat 32 UTOP) 0 0) cur)
    (htells : ∀ m cur id, m.pc cur = .outside → m.kernel.Fits (bootAvail 2) (fun _ => 0) →
      P m (callTurn m.kernel 12 id value (BitVec.ofNat 32 UTOP)) cur)
    (hyields : ∀ m cur, m.pc cur = .outside → m.kernel.Fits (bootAvail 2) (fun _ => 0) →
      P m (callTurn m.kernel 11 0 0 0) cur) :
  ∃ s m waits, Started (bootAvail 2) s ∧ Run P s m
    ∧ Couple (bootAvail 2) m.kernel 0 1 .ENV_RUNNING .ENV_RUNNABLE waits
    ∧ m.trace 0 = (.waiting, [{ value := value, sender := idOf 1, perm := 0 }], [])
    ∧ m.pc 1 = .outside
    ∧ (m.kernel.envs 0).message = { value := value, sender := idOf 1, perm := 0 }
  := by
  obtain ⟨s, heq, htwo, -⟩ := firstEnvs_ok (n := 2) (by decide) (by decide)
  have h0 : Couple (bootAvail 2) (fresh (s.running 0)).kernel 0 1 _ _ _ := firstEnvs_couple htwo
  have hrun0 : Run P (s.running 0) (fresh (s.running 0)) := .start
  obtain ⟨m1, hstep1, h1, htrace1, hother1⟩ := h0.step_asks (hasks (fresh _) 0 rfl h0.fits)
  have hpc1 : m1.pc 1 = .outside := congrArg Prod.fst hother1
  obtain ⟨m2, hstep2, h2, hother2, htrace2, hmessage2⟩ :=
    h1.step_tells (htells m1 1 _ hpc1 h1.fits)
  have hpc2 : m2.pc 1 = .outside := (congrArg Prod.fst hother2).trans hpc1
  obtain ⟨m3, hstep3, h3, hother3, htrace3, hmessage3⟩ := h2.step_yields (hyields m2 1 hpc2 h2.fits)
  simp only [trace, fresh, Prod.mk.injEq] at htrace1
  obtain ⟨hpc, hsent, hgot⟩ := htrace1
  rw [hpc, hsent, hgot, List.nil_append] at htrace2
  exact ⟨s.running 0, m3, _, firstEnvs_started heq htwo,
    ((hrun0.step hstep1).step hstep2).step hstep3, h3, htrace3.trans htrace2,
    (congrArg Prod.fst hother3).trans hpc2, hmessage3.trans hmessage2⟩

end Mail

end Jos
