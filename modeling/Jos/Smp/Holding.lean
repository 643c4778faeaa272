import Jos.Smp.Discipline
import Jos.Smp.Exclusive

/-!
# The big kernel lock keeps the processors apart

In every interleaving of the steps of all processors, a processor that works in the kernel
holds the lock, and one that runs an environment or is halted does not, as long as no program
makes `env_replace` write above `UTOP`, where the lock is.
-/

namespace Jos.Smp

open Bytes Spinlock

/-! ### All processors -/

/-- The lock says of every processor in which phase it is, and what it executes is lawful
there. -/
structure Machine.Inv (m : Machine) (phase : Nat → Phase) : Prop where
  owned : Owned m.kernelLock phase
  lawful : ∀ c, (m.code c).Lawful c (phase c) (m.data.cpus c) (m.flIf c)

variable {m m' : Machine} {phase : Nat → Phase} {c : Nat}

/-- Only the processor `c` changes. -/
theorem Machine.Inv.update (h : m.Inv phase) {p : Phase}
    (howned : Owned m'.kernelLock (Function.update phase c p))
    (hlawful : (m'.code c).Lawful c p (m'.data.cpus c) (m'.flIf c))
    (hcpus : ∀ c', c' ≠ c → m'.data.cpus c' = m.data.cpus c')
    (hif : ∀ c', c' ≠ c → m'.flIf c' = m.flIf c')
    (hcode : ∀ c', c' ≠ c → m'.code c' = m.code c') :
  m'.Inv (Function.update phase c p)
  := by
  constructor
  · exact howned
  · intro c'
    by_cases hc : c' = c
    · rw [hc, Function.update_self]
      exact hlawful
    · rw [Function.update_of_ne hc, hcpus c' hc, hif c' hc, hcode c' hc]
      exact h.lawful c'

/-- Only the processor `c` changes, and it stays in its phase. -/
theorem Machine.Inv.stay (h : m.Inv phase) (hlock : m'.kernelLock = m.kernelLock)
    (hlawful : (m'.code c).Lawful c (phase c) (m'.data.cpus c) (m'.flIf c))
    (hcpus : ∀ c', c' ≠ c → m'.data.cpus c' = m.data.cpus c')
    (hif : ∀ c', c' ≠ c → m'.flIf c' = m.flIf c')
    (hcode : ∀ c', c' ≠ c → m'.code c' = m.code c') :
  m'.Inv phase
  := by
  have hphase : Function.update phase c (phase c) = phase := Function.update_eq_self c phase
  rw [← hphase]
  apply h.update _ hlawful hcpus hif hcode
  rw [hphase, hlock]
  apply h.owned

/-- The processor `c` goes on with something lawful. -/
theorem Machine.Inv.goto (h : m.Inv phase) {k : Code}
    (hk : k.Lawful c (phase c) (m.data.cpus c) (m.flIf c)) :
  (m.goto c k).Inv phase
  := by
  apply h.stay (c := c)
  · rfl
  · simp only [Machine.goto, Function.update_self]
    exact hk
  · exact fun _ _ => rfl
  · exact fun _ _ => rfl
  · intro c' hc
    simp only [Machine.goto, Function.update_of_ne hc]

/-- The processor `c` takes a trap. -/
theorem Machine.Inv.trap (h : m.Inv phase) {d : Decisions} {tf : Trapframe}
    (ho : Origin tf (phase c) (m.data.cpus c)) :
  (m.gotoIf c false (.enter d tf)).Inv phase
  := by
  apply h.stay (c := c)
  · rfl
  · simp only [Machine.gotoIf, Machine.goto, Function.update_self]
    exact .enter ho
  · exact fun _ _ => rfl
  · intro c' hc
    simp only [Machine.gotoIf, Function.update_of_ne hc]
  · intro c' hc
    simp only [Machine.gotoIf, Machine.goto, Function.update_of_ne hc]

/-! ### One step -/

/-- A processor that is marked as started goes on in `trap`: with the lock if it was halted,
and with what it holds otherwise. -/
theorem Origin.started {tf : Trapframe} {p : Phase} {info : CpuInfo} (h : Origin tf p info)
    (d : Decisions) (c : Nat) :
  (if info.cpuStatus = .CPU_HALTED then Code.lock (.trapStarted d tf) else .trapStarted d tf).Lawful
    c p { info with cpuStatus := .CPU_STARTED } false
  := by
  cases h with
  | user hcs hst =>
      rw [if_neg (by simp [hst])]
      exact Code.lawful_trapStarted_user rfl d hcs
  | halted hcs hst =>
      rw [if_pos hst]
      apply Code.Lawful.lock
      exact Code.lawful_trapStarted_kernel rfl d hcs
  | kernel hcs hst =>
      rw [if_neg (by simp [hst])]
      exact Code.lawful_trapStarted_kernel rfl d hcs

/-- The status of the processor `c` changes. -/
theorem Machine.Inv.setStatus (h : m.Inv phase) {st : CpuStatus} {k : Code}
    (hk : k.Lawful c (phase c) { m.data.cpus c with cpuStatus := st } (m.flIf c)) :
  ((m.setStatus c st).goto c k).Inv phase
  := by
  apply h.stay (c := c)
  · rfl
  · simp only [Machine.goto, Machine.setStatus, State.setCpu, Machine.on, Function.update_self]
    exact hk
  · intro c' hc
    simp only [Machine.goto, Machine.setStatus, State.setCpu, Machine.on, Function.update_of_ne hc]
  · exact fun _ _ => rfl
  · intro c' hc
    simp only [Machine.goto, Machine.setStatus, Function.update_of_ne hc]

/-- The lock changes, and the processor `c` goes on in another phase. -/
theorem Machine.Inv.setLock (h : m.Inv phase) {lk : Spinlock Nat} {p : Phase} {k : Code}
    (howned : Owned lk (Function.update phase c p))
    (hk : k.Lawful c p (m.data.cpus c) (m.flIf c)) :
  ((m.setLock lk).goto c k).Inv (Function.update phase c p)
  := by
  apply h.update
  · exact howned
  · simp only [Machine.goto, Machine.setLock, Function.update_self]
    exact hk
  · exact fun _ _ => rfl
  · exact fun _ _ => rfl
  · intro c' hc
    simp only [Machine.goto, Machine.setLock, Function.update_of_ne hc]

/-- The kernel's data changes, and the interrupt flag of the processor `c`. -/
theorem Machine.Inv.setData (h : m.Inv phase) {s : State} {b : Bool} {k : Code}
    (hown : Own c m.data s) (hk : k.Lawful c (phase c) (s.cpus c) b) :
  { m.gotoIf c b k with data := s }.Inv phase
  := by
  apply h.stay (c := c)
  · exact hown.kernelLock
  · simp only [Machine.gotoIf, Machine.goto, Function.update_self]
    exact hk
  · exact hown.cpus
  · intro c' hc
    simp only [Machine.gotoIf, Function.update_of_ne hc]
  · intro c' hc
    simp only [Machine.gotoIf, Machine.goto, Function.update_of_ne hc]

/-- Some of the kernel's data changes, and the processor `c` goes on. -/
theorem Machine.Inv.setOn (h : m.Inv phase) {s : State} {k : Code} (hown : Own c (m.on c) s)
    (hk : k.Lawful c (phase c) (s.cpus c) (m.flIf c)) :
  { m.goto c k with data := s }.Inv phase
  := by
  have hset := h.setData (c := c) (b := m.flIf c) (k := k) ⟨hown.cpus, hown.kernelLock⟩ hk
  simp only [Machine.gotoIf, Function.update_eq_self] at hset
  exact hset

/-- What a processor that is tame writes below the stack pointer is no data of the kernel. -/
theorem Machine.tame_push {d : Decisions} {argc argobt : Word} {k : Word → Code}
    (htame : m.tame c = true) (hcode : m.code c = .push d argc argobt k) :
  (pushArgs d argc argobt).MayEnd (m.on c) (fun _ s' => s' = m.on c) (fun _ => False)
  := by
  apply pushArgs_ok
  intro cur hcur
  have hcur' : (m.data.cpus c).cpuEnv = some cur := hcur
  rw [Machine.tame, hcode, hcur'] at htame
  exact of_decide_eq_true htame

/-- Whatever a processor executes next, all of them are in some phase afterwards. -/
theorem Machine.Inv.exec (h : m.Inv phase) (htame : m.tame c = true) :
  ∃ phase', (m.exec c).Inv phase'
  := by
  have hl := h.lawful c
  obtain ⟨p, hp⟩ : ∃ p, phase c = p := ⟨_, rfl⟩
  obtain ⟨info, hinfo⟩ : ∃ info, m.data.cpus c = info := ⟨_, rfl⟩
  obtain ⟨b, hb⟩ : ∃ b, m.flIf c = b := ⟨_, rfl⟩
  rw [hp, hinfo, hb] at hl
  cases hcode : m.code c with
  | off | user | hlt | fault | monitor | dead =>
      rw [Machine.exec, hcode]
      exact ⟨phase, h⟩
  | enter d tf =>
      rw [Machine.exec, hcode]
      rw [hcode] at hl
      cases hl with
      | enter ho =>
          use phase
          apply h.goto
          rw [hp, hinfo, hb]
          split
          · exact .dead
          · exact .xchgStarted ho
  | xchgStarted d tf =>
      rw [Machine.exec, hcode]
      rw [hcode] at hl
      cases hl with
      | xchgStarted ho =>
          use phase
          apply h.setStatus
          rw [hp, hinfo, hb]
          exact ho.started d c
  | assertNoIf k =>
      rw [Machine.exec, hcode]
      rw [hcode] at hl
      cases hl with
      | assertNoIf hk =>
          use phase
          apply h.goto
          rw [hp, hinfo, hb]
          exact hk
  | lock k =>
      rw [Machine.exec, hcode]
      rw [hcode] at hl
      cases hl with
      | lock hk =>
          use phase
          apply h.goto
          rw [h.owned.not_holding (c := c) (by simp [hp]), hp, hinfo, hb]
          exact .spin hk
  | spin k =>
      rw [Machine.exec, hcode]
      rw [hcode] at hl
      cases hl with
      | spin hk =>
          simp only
          split
          case isTrue => exact ⟨phase, h⟩
          case isFalse hfree =>
            rw [Bool.not_eq_true] at hfree
            refine ⟨_, h.setLock (h.owned.take (c := c) hfree) ?_⟩
            rw [hinfo, hb]
            exact .record hk
  | record k =>
      rw [Machine.exec, hcode]
      rw [hcode] at hl
      cases hl with
      | record hk =>
          refine ⟨_, h.setLock (h.owned.record hp) ?_⟩
          rw [hinfo, hb]
          exact hk
  | work f k =>
      rw [Machine.exec, hcode]
      rw [hcode] at hl
      cases hl with
      | work hst hown hk =>
          use phase
          apply h.setOn (hown (m.on c) rfl hinfo)
          rw [hp, hb]
          exact hk (m.on c) rfl hinfo
  | push d argc argobt k =>
      rw [Machine.exec, hcode]
      rw [hcode] at hl
      cases hl with
      | push hst hk =>
          use phase
          have hon : (m.on c).cpus c = info := hinfo
          have hends : (pushArgs d argc argobt).MayEnd (m.on c)
              (fun a s' => Own c (m.on c) s' ∧ (k a).Lawful c .inside (s'.cpus c) false)
              (fun _ => False) := by
            apply (Machine.tame_push htame hcode).mono _ (fun _ h => h)
            intro a s' hs'
            rw [hs', hon]
            exact ⟨⟨fun _ _ => rfl, rfl⟩, hk a⟩
          obtain ⟨hown, hlawful⟩ := Code.lawful_after (hon ▸ hst) hends
          apply h.setOn hown
          rw [hp, hb]
          exact hlawful
  | xchgHalted k =>
      rw [Machine.exec, hcode]
      rw [hcode] at hl
      cases hl with
      | xchgHalted hk =>
          use phase
          apply h.setStatus
          rw [hp, hinfo, hb]
          exact hk
  | unlock k =>
      rw [Machine.exec, hcode]
      rw [hcode] at hl
      cases hl with
      | unlock hk =>
          use phase
          apply h.goto
          rw [(h.owned.holding_iff c).mpr hp, hp, hinfo, hb]
          exact .clear hk
  | clear k =>
      rw [Machine.exec, hcode]
      rw [hcode] at hl
      cases hl with
      | clear hk =>
          refine ⟨_, h.setLock (h.owned.clear hp) ?_⟩
          rw [hinfo, hb]
          exact .release hk
  | release k =>
      rw [Machine.exec, hcode]
      rw [hcode] at hl
      cases hl with
      | release hk =>
          refine ⟨_, h.setLock (h.owned.release hp) ?_⟩
          rw [hinfo, hb]
          exact hk
  | popTf =>
      rw [Machine.exec, hcode]
      rw [hcode] at hl
      cases hl with
      | popTf hst hcur =>
          obtain ⟨cur, hcur'⟩ := Option.ne_none_iff_exists'.mp hcur
          use phase
          rw [← hinfo] at hcur'
          simp only [hcur']
          apply h.setData
          · exact ⟨fun _ _ => rfl, rfl⟩
          · rw [hp]
            change Code.Lawful c .outside (m.data.cpus c) _ .user
            rw [hinfo]
            exact .user hst
  | sti =>
      rw [Machine.exec, hcode]
      rw [hcode] at hl
      cases hl with
      | sti hst =>
          use phase
          apply h.setData
          · exact ⟨fun _ _ => rfl, rfl⟩
          · rw [hp]
            change Code.Lawful c .outside (m.data.cpus c) _ .hlt
            rw [hinfo]
            exact .hlt hst
  | panic msg =>
      rw [Machine.exec, hcode]
      rw [hcode] at hl
      cases hl with
      | panic hst =>
          use phase
          have hgoto := h.goto (c := c) (k := .monitor)
          rw [hp, hinfo, hb] at hgoto
          exact ⟨(hgoto (.monitor hst)).owned, (hgoto (.monitor hst)).lawful⟩

/-- What can happen on a processor leaves all of them in some phase. -/
theorem Machine.Inv.step (h : m.Inv phase) (htame : m.tame c = true) (hstep : Step c m m') :
  ∃ phase', m'.Inv phase'
  := by
  have hl := h.lawful c
  obtain ⟨p, hp⟩ : ∃ p, phase c = p := ⟨_, rfl⟩
  obtain ⟨info, hinfo⟩ : ∃ info, m.data.cpus c = info := ⟨_, rfl⟩
  obtain ⟨b, hb⟩ : ∃ b, m.flIf c = b := ⟨_, rfl⟩
  rw [hp, hinfo, hb] at hl
  cases hstep with
  | exec => exact h.exec htame
  | user d tf hcode hcs =>
      rw [hcode] at hl
      cases hl with
      | user hst =>
          use phase
          apply h.trap
          rw [hp, hinfo]
          exact .user hcs hst
  | halted d tf hcode hcs =>
      rw [hcode] at hl
      cases hl with
      | hlt hst =>
          use phase
          apply h.trap
          rw [hp, hinfo]
          exact .halted hcs hst
  | kernel d tf hcode hcs =>
      use phase
      apply h.trap
      rw [hp, hinfo]
      obtain ⟨f, k, hcode⟩ | ⟨_, _, _, _, hcode⟩ | hcode | hcode := hcode
      · rw [hcode] at hl
        cases hl with
        | work hst => exact .kernel hcs hst
      · rw [hcode] at hl
        cases hl with
        | push hst => exact .kernel hcs hst
      · rw [hcode] at hl
        cases hl with
        | fault hst => exact .kernel hcs hst
      · rw [hcode] at hl
        cases hl with
        | monitor hst => exact .kernel hcs hst

/-! ### What the lock guarantees -/

/-- Something that is executed between taking the lock in `trap` and giving it back in
`env_run` or `sched_halt`. -/
def Code.inside : Code → Bool
  | .assertNoIf k => k.inside
  | .work _ _ | .push _ _ _ _ | .fault | .xchgHalted _ | .unlock _ | .clear _ | .panic _
  | .monitor => true
  | _ => false

/-- An environment runs or the processor is halted, or is about to, or the processor waits
for the lock. -/
def Code.outside : Code → Bool
  | .user | .hlt | .popTf | .sti | .lock _ | .spin _ => true
  | _ => false

namespace Machine

/-- A processor between its entry to the kernel and its exit. It may have entered the kernel
again from there. -/
def InKernel (m : Machine) (c : Nat) : Prop :=
  (m.code c).inside = true ∨
  ∃ d tf, (m.code c = .enter d tf ∨ m.code c = .xchgStarted d tf) ∧ tf.tfCs = GD_KT
    ∧ (m.data.cpus c).cpuStatus = .CPU_STARTED

/-- The discipline of the lock. -/
structure Disciplined (m : Machine) : Prop where
  /-- A processor between its entry to the kernel and its exit holds the lock. -/
  inside : ∀ c, m.InKernel c → m.kernelLock.holding c = true
  /-- A processor in user mode or halted does not hold the lock. -/
  outside : ∀ c, (m.code c).outside = true → m.kernelLock.holding c = false
  /-- No processor takes the lock while it holds it. -/
  acquire : ∀ c k, m.code c = .lock k ∨ m.code c = .spin k → m.kernelLock.holding c = false
  /-- No processor gives the lock back without holding it. -/
  release : ∀ c k, m.code c = .unlock k ∨ m.code c = .clear k → m.kernelLock.holding c = true
  /-- At most one processor holds the lock. -/
  one : ∀ c c', m.kernelLock.holding c = true → m.kernelLock.holding c' = true → c = c'

end Machine

/-- What is executed inside is lawful only there. -/
theorem Code.Lawful.inside {p : Phase} {info : CpuInfo} {b : Bool} {k : Code}
    (h : k.Lawful c p info b) (hin : k.inside = true) :
  p = .inside
  := by
  induction h with
  | assertNoIf _ ih => exact ih hin
  | work | push | fault | xchgHalted | unlock | clear | panic | monitor => rfl
  | off | user | hlt | enter | xchgStarted | lock | spin | record | release | popTf | sti
  | dead => cases hin

/-- The kernel is entered lawfully only for a trap that can be taken. -/
theorem Code.Lawful.origin {p : Phase} {info : CpuInfo} {b : Bool} {k : Code} {d : Decisions}
    {tf : Trapframe} (h : k.Lawful c p info b) (hk : k = .enter d tf ∨ k = .xchgStarted d tf) :
  Origin tf p info
  := by
  obtain rfl | rfl := hk
  · cases h with
    | enter ho => exact ho
  · cases h with
    | xchgStarted ho => exact ho

/-- What is executed outside is lawful only there. -/
theorem Code.Lawful.outside {p : Phase} {info : CpuInfo} {b : Bool} {k : Code}
    (h : k.Lawful c p info b) (hout : k.outside = true) :
  p = .outside
  := by
  cases h with
  | user | hlt | popTf | sti | lock | spin => rfl
  | off | enter | xchgStarted | assertNoIf | record | work | push | fault | xchgHalted
  | unlock | clear | release | panic | monitor | dead => cases hout

/-- A frame of the kernel is taken on a processor that is not halted only inside. -/
theorem Origin.inside {tf : Trapframe} {p : Phase} {info : CpuInfo} (h : Origin tf p info)
    (hcs : tf.tfCs = GD_KT) (hst : info.cpuStatus = .CPU_STARTED) :
  p = .inside
  := by
  cases h with
  | user hcs' =>
      rw [hcs] at hcs'
      exact absurd hcs' (by decide)
  | halted _ hst' =>
      rw [hst] at hst'
      cases hst'
  | kernel => rfl

theorem Machine.Inv.not_holding (h : m.Inv phase) (hout : (m.code c).outside = true) :
  m.kernelLock.holding c = false
  := by
  apply h.owned.not_holding
  rw [(h.lawful c).outside hout]
  simp

theorem Machine.Inv.disciplined (h : m.Inv phase) :
  m.Disciplined
  := by
  constructor
  · intro c hin
    apply (h.owned.holding_iff c).mpr
    have hl := h.lawful c
    obtain hin | ⟨d, tf, hcode, hcs, hst⟩ := hin
    · exact hl.inside hin
    · exact (hl.origin hcode).inside hcs hst
  · exact fun c hout => h.not_holding hout
  · intro c k hcode
    apply h.not_holding
    obtain hcode | hcode := hcode
    · rw [hcode]
      rfl
    · rw [hcode]
      rfl
  · intro c k hcode
    apply (h.owned.holding_iff c).mpr
    apply (h.lawful c).inside
    obtain hcode | hcode := hcode
    · rw [hcode]
      rfl
    · rw [hcode]
      rfl
  · intro c c' hc hc'
    rw [h.owned.holding_iff] at hc hc'
    apply h.owned.one
    · rw [hc]
      simp
    · rw [hc']
      simp

/-- When the other processors were started, the boot processor is inside. -/
theorem Machine.Started.inv {d : Decisions} (h : m.Started d) :
  m.Inv (Function.update (fun _ => .outside) 0 .inside)
  := by
  constructor
  · rw [h.lock]
    apply owned_update
    · exact fun _ _ => rfl
    · simp
    · rfl
  · intro c
    rw [h.flIf c]
    by_cases hc : c = 0
    · rw [hc, Function.update_self, h.boot]
      apply Code.lawful_i386Init
      exact h.cpus 0 (Nat.zero_lt_of_lt h.ncpu)
    · rw [Function.update_of_ne hc]
      by_cases hlt : c < m.data.ncpu
      · rw [h.start c hlt hc]
        exact Code.lawful_mpMain (h.cpus c hlt)
      · rw [h.off c (Nat.le_of_not_lt hlt) hc]
        exact .off

/-- In every interleaving of what happens on processors that are tame, all of them are in some
phase. -/
theorem Machine.Run.inv (h : Run (fun c m => m.tame c = true) m m') (hm : m.Inv phase) :
  ∃ phase', m'.Inv phase'
  := by
  induction h with
  | refl => exact ⟨phase, hm⟩
  | step _ htame hstep ih =>
      obtain ⟨_, h'⟩ := ih
      exact h'.step htame hstep

/-- Two processors that were just started. -/
def twoStarted : Machine where
  data :=
    { ncpu := 2
      cpus := fun _ => { cpuStatus := .CPU_STARTED }
      envFreeList := some 0
      kernelLock := { locked := true, cpu := some 0 } }
  flIf := fun _ => false
  code := fun c => if c = 0 then .i386Init generous else if c = 1 then .mpMain else .off

theorem twoStarted_started :
  twoStarted.Started generous
  := by
  constructor
  · exact Nat.one_lt_two
  · rfl
  · exact fun _ _ => rfl
  · exact fun _ => rfl
  · rfl
  · intro c hlt hc
    have hone : c = 1 := by
      change c < 2 at hlt
      omega
    rw [hone]
    rfl
  · intro c hle hc
    have hone : c ≠ 1 := by
      change 2 ≤ c at hle
      omega
    change (if c = 0 then _ else if c = 1 then _ else _) = _
    rw [if_neg hc, if_neg hone]

/-- The processor `c` executes its next `n` steps. -/
def Machine.execs (m : Machine) (c : Nat) : Nat → Machine
  | 0 => m
  | n + 1 => (m.execs c n).exec c

theorem Machine.Run.execs {P : Nat → Machine → Prop} (h : Run P m m') (c : Nat) {n : Nat}
    (hP : ∀ i < n, P c (m'.execs c i)) :
  Run P m (m'.execs c n)
  := by
  induction n with
  | zero => exact h
  | succ n ih =>
      have hrun := ih (fun i hi => hP i (Nat.lt_succ_of_lt hi))
      exact hrun.step (hP n (Nat.lt_succ_self n)) .exec

/-- The first processor has created the only environment and runs it. -/
def firstUser : Machine :=
  twoStarted.execs 0 7

/-- The frame of `sys_envreplace(0, 0, 0)` with a stack pointer. -/
def replaceTf (esp : Word) : Trapframe :=
  { tfTrapno := 48
    tfCs := GD_UT ||| 3
    tfEsp := esp
    tfRegs := { regEax := 14 } }

/-- The environment makes this call. -/
def replacing (esp : Word) : Machine :=
  firstUser.gotoIf 0 false (.enter generous (replaceTf esp))

/-- Eleven steps later the two words were written below the stack pointer. -/
def replaced (esp : Word) : Machine :=
  (replacing esp).execs 0 11

/-- Whether a processor is in user mode. -/
def Code.isUser : Code → Bool
  | .user => true
  | _ => false

theorem firstUser_code :
  firstUser.code 0 = .user
  := by
  have huser : (firstUser.code 0).isUser = true := by decide +kernel
  cases hcode : firstUser.code 0 with
  | user => rfl
  | _ =>
      rw [hcode] at huser
      cases huser

theorem run_replaced {P : Nat → Machine → Prop} {esp : Word}
    (hboot : ∀ i < 8, P 0 (twoStarted.execs 0 i))
    (hcall : ∀ i < 11, P 0 ((replacing esp).execs 0 i)) :
  Machine.Run P twoStarted (replaced esp)
  := by
  have hrun : Machine.Run P twoStarted firstUser :=
    Machine.Run.refl.execs 0 (fun i hi => hboot i (Nat.lt_succ_of_lt hi))
  have hcs : (replaceTf esp).tfCs &&& 3 = 3 := by
    change (GD_UT ||| 3) &&& 3 = 3
    decide
  exact (hrun.step (hboot 7 (by decide)) (.user generous _ firstUser_code hcs)).execs 0 hcall

end Jos.Smp
