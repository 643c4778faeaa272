import Jos.Root.Boot
import Jos.Root.Served

/-!
# The machine

The kernel in `kern/` runs on several processors.  One processor at a time is in the kernel, which
its lock sees to.  Each processor has a current environment, or waits, and a page directory that is
in force.  A processor that waits has the directory of the kernel in force, and one that runs an
environment the directory of the environment.  There are two exceptions: `env_run` does not switch
to the directory of the environment that is current already, and `load_icode` switches to the
directory of the environment that it loads.

A run is orderly if no page has more references than its counter can count, environments push
arguments of programs below `UTOP`, and none is freed by one processor while another one uses it.
-/

namespace Jos

namespace Root

open Bytes Prog

variable {avail : Finset Nat} {binary : Program → Binary} {s s' : Kernel}

/-! ### Processors -/

/-- The kernel and its processors. -/
structure Machine where
  host : Host
  cpuEnv : Nat → Option Nat
  cpuDir : Nat → Nat

namespace Machine

/-- The kernel of a machine. -/
def kernel (m : Machine) : Kernel :=
  m.host.kernel

/-- The kernel is entered on the processor `c`. -/
def on (m : Machine) (c : Nat) : Host :=
  { m.host with kernel := { m.host.kernel with curenv := m.cpuEnv c } }

/-- The processor `c` leaves the kernel with the directory `dir` in force. -/
def left (m : Machine) (c : Nat) (g : Host) (dir : Nat) : Machine where
  host := g
  cpuEnv := Function.update m.cpuEnv c g.kernel.curenv
  cpuDir := Function.update m.cpuDir c dir

/-- Memory or what devices hold changes. -/
def withKernel (m : Machine) (s : Kernel) : Machine :=
  { m with host := { m.host with kernel := s } }

end Machine

/-- The directories that may be in force when the processor `c` leaves the kernel. -/
inductive InForce (m : Machine) (c : Nat) (s : Kernel) : Nat → Prop
  | halted (hcur : s.curenv = none) : InForce m c s s.kernPgdir
  | switched {e pg : Nat} (hcur : s.curenv = some e) (hpg : s.pgdir e = some pg) : InForce m c s pg
  | kept {e : Nat} (hcur : s.curenv = some e) (hold : m.cpuEnv c = some e) :
    InForce m c s (m.cpuDir c)
  | created {e e' pg : Nat} (hcur : s.curenv = some e) (hold : m.cpuEnv c = some e)
    (hnew : ¬ m.kernel.Live e') (hpg : s.pgdir e' = some pg) : InForce m c s pg

/-! ### Steps -/

/-- What happens on a processor. -/
inductive Event where
  /-- The environment writes to memory. -/
  | run
  /-- The environment traps with the registers `tf`. -/
  | trap (tf : Trapframe)
  /-- The processor waits and is interrupted. -/
  | idle
  /-- A device has received something. -/
  | input

/-- The steps of the processor `c`. What an environment writes to is mapped writable in the
directory in force, and what it traps with is up to it, but for the privilege level. -/
inductive Step (binary : Program → Binary) (m : Machine) (c : Nat) : Event → Machine → Prop
  | run {e : Fin NENV} {s' : Kernel} (hcur : m.cpuEnv c ≠ none)
    (hdir : m.kernel.pgdir e = some (m.cpuDir c)) (hst : UserStored e m.kernel s') :
    Step binary m c .run (m.withKernel s')
  | trap {cur : Fin NENV} {faultVa : Word} {tf : Trapframe} {g : Host} {dir : Nat}
    (hcur : m.cpuEnv c = some cur.val) (hcs : tf.tfCs &&& 3 = 3) (hss : tf.tfSs &&& 3 = 3)
    (htrap : Root.trap binary (m.cpuDir c) faultVa tf (m.on c) = .error (.leave g))
    (hforce : InForce m c g.kernel dir) : Step binary m c (.trap tf) (m.left c g dir)
  | idle {s' : Kernel} {dir : Nat} (hcur : m.cpuEnv c = none)
    (hyield : (schedYield : Prog Kernel Unit) (m.on c).kernel = .error (.leave s'))
    (hforce : InForce m c s' dir) : Step binary m c .idle (m.left c { m.host with kernel := s' } dir)
  | input {serial keyboard : List Byte} : Step binary m c .input
    (m.withKernel { m.kernel with serial := serial, keyboard := keyboard })

/-- The machines after boot, before any environment runs: the environments that `i386_init`
creates are there. -/
inductive Booted : Machine → Prop
  | init {avail : Finset Nat} {s s' : Kernel} (hboot : AfterMemInit avail s)
    (hinit : envInit s = .ok ((), s')) :
    Booted ⟨{ kernel := s' }, fun _ => none, fun _ => s'.kernPgdir⟩
  | create {m : Machine} {binary : Binary} {type : EnvType} {s' : Kernel} (hm : Booted m)
    (hlink : Linked binary) (heq : envCreate binary type m.kernel = .ok ((), s')) :
    Booted (m.withKernel s')

/-- The machines of the runs whose steps meet the condition `ok`. -/
inductive Reachable (binary : Program → Binary) (ok : Machine → Nat → Event → Prop) : Machine → Prop
  | boot {m : Machine} (hm : Booted m) : Reachable binary ok m
  | step {m m' : Machine} {c : Nat} {ev : Event} (hm : Reachable binary ok m) (hok : ok m c ev)
    (hstep : Step binary m c ev m') : Reachable binary ok m'

/-! ### Orderly runs -/

/-- No page has more references than its counter can count. -/
def NoOverflow (s : Kernel) : Prop :=
  ∀ p, s.refs p ≤ 65535

/-- What the processors use belongs to environments that are live. -/
structure Settled (m : Machine) : Prop where
  env : ∀ c e, m.cpuEnv c = some e → m.kernel.Live e
  dir : ∀ c, m.cpuEnv c ≠ none → ∃ e : Fin NENV, m.kernel.pgdir e = some (m.cpuDir c)

/-- What no environment that traps may break: the arguments of a new program are pushed below
`UTOP`. -/
def PushesBelow (s : Kernel) (cur : Nat) : Prop :=
  Asks s cur .SYS_envreplace → Program.ofInt (arg1 s cur) ≠ none → StackBelow s cur

/-- The steps of orderly runs. -/
structure Orderly (m : Machine) (c : Nat) (ev : Event) : Prop where
  noOverflow : NoOverflow m.kernel
  settled : Settled m
  pushes : ∀ tf, ev = .trap tf → ∀ cur, m.cpuEnv c = some cur →
    PushesBelow (entered (m.on c).kernel cur tf) cur

/-- No environment that waits for a message is given a status. -/
def StatusKept (s : Kernel) (cur : Nat) : Prop :=
  Asks s cur .SYS_env_set_status → ∀ e, s.findEnv cur (arg1 s cur) true = some e →
    (s.envs e).envIpcRecving = false

/-- The steps that leave the status of environments that wait for a message alone. -/
def KeepsStatus (m : Machine) (c : Nat) (ev : Event) : Prop :=
  ∀ tf, ev = .trap tf → ∀ cur, m.cpuEnv c = some cur →
    StatusKept (entered (m.on c).kernel cur tf) cur

theorem Reachable.mono {ok ok' : Machine → Nat → Event → Prop} {binary : Program → Binary}
    (hok : ∀ m c ev, ok m c ev → ok' m c ev) {m : Machine} (h : Reachable binary ok m) :
  Reachable binary ok' m
  := by
  induction h with
  | boot hm => exact .boot hm
  | step _ ho hstep ih => exact ih.step (hok _ _ _ ho) hstep

theorem NoOverflow.fits (h : NoOverflow s) (avail : Finset Nat) :
  Fits avail s
  := fun p _ => h p

theorem Booted.wf {m : Machine} (h : Booted m) :
  ∃ avail, Wf avail ∅ m.kernel ∧ Fits avail m.kernel
  := by
  induction h with
  | init hboot hinit =>
      obtain ⟨hwf, hfits, -⟩ := wf_of_init hboot hinit
      exact ⟨_, hwf, hfits⟩
  | create _ hlink heq ih =>
      obtain ⟨avail, hwf, hfits⟩ := ih
      obtain ⟨hwf', hfits', -⟩ := (envCreate_done hlink hwf hfits _).of_eq heq
      exact ⟨avail, hwf', hfits'⟩

/-- What has happened to the kernel in a step of the processor `c`. -/
inductive Change (avail : Finset Nat) (m : Machine) (c : Nat) : Event → Kernel → Prop
  | run {e : Fin NENV} {s' : Kernel} (hst : UserStored e m.kernel s') : Change avail m c .run s'
  | trap {cur : Fin NENV} {tf : Trapframe} {s' : Kernel} (hcur : m.cpuEnv c = some cur.val)
    (hcs : tf.tfCs &&& 3 = 3) (hss : tf.tfSs &&& 3 = 3)
    (ht : Trapped avail cur tf (m.on c).kernel s') : Change avail m c (.trap tf) s'
  | idle {s' : Kernel} (hr : Resumed (m.on c).kernel s') : Change avail m c .idle s'
  | input {s' : Kernel} (ha : Aside m.kernel s') : Change avail m c .input s'

theorem Machine.wf_on {m : Machine} (h : Wf avail ∅ m.kernel) (c : Nat) :
  Wf avail ∅ (m.on c).kernel
  := h.setCurenv (m.cpuEnv c)

/-- A step of an orderly run keeps the kernel well formed. -/
theorem step_change (hlink : ∀ p, Linked (binary p)) {m m' : Machine} {c : Nat} {ev : Event}
    (hs : Wf avail ∅ m.kernel) (hok : Orderly m c ev) (hstep : Step binary m c ev m') :
  Change avail m c ev m'.kernel ∧ ∃ avail', Wf avail' ∅ m'.kernel
  := by
  have hson := Machine.wf_on hs c
  cases hstep with
  | run _ _ hst => exact ⟨.run hst, avail, hst.wf hs⟩
  | @trap cur faultVa tf g dir hcur hcs hss htrap hforce =>
      have hfits : Fits avail (m.on c).kernel :=
        fits_sameTables (Kernel.SameTables.of_mem rfl rfl rfl) (hok.noOverflow.fits avail)
      have hlive : (m.on c).kernel.Live cur := hok.settled.env c cur hcur
      have hdir : ∃ e : Fin NENV, (m.on c).kernel.pgdir e = some (m.cpuDir c) :=
        hok.settled.dir c (by rw [hcur]; simp)
      obtain ⟨ht, hwf⟩ := (trap_ends hlink hson hfits hcur hlive hdir
        (hok.pushes tf rfl cur hcur)).of_leave htrap
      exact ⟨.trap hcur hcs hss ht, hwf⟩
  | idle _ hyield _ =>
      have hr := schedYield_resumed.of_leave hyield
      exact ⟨.idle hr, avail, hson.resumed hr⟩
  | input =>
      have ha : ∀ serial keyboard, Aside m.kernel
          { m.kernel with serial := serial, keyboard := keyboard } :=
        fun _ _ => ⟨rfl, rfl, rfl, rfl, rfl, rfl, rfl, rfl⟩
      exact ⟨.input (ha _ _), avail, hs.aside (ha _ _)⟩

/-- In orderly runs the kernel stays well formed. -/
theorem Reachable.wf {ok : Machine → Nat → Event → Prop} (hlink : ∀ p, Linked (binary p))
    (hok : ∀ m c ev, ok m c ev → Orderly m c ev) {m : Machine} (h : Reachable binary ok m) :
  ∃ avail, Wf avail ∅ m.kernel
  := by
  induction h with
  | boot hm =>
      obtain ⟨avail, hwf, -⟩ := hm.wf
      use avail
  | step _ ho hstep ih =>
      obtain ⟨avail, hwf⟩ := ih
      exact (step_change hlink hwf (hok _ _ _ ho) hstep).2

end Root

end Jos
