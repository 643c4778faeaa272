import Jos.Kern.PageCalls
import Jos.Kern.Sched
import Jos.Kern.Boot

/-!
# Sending messages

What `sys_ipc_try_send` does in a well-formed kernel, and when it treats the page that
goes with a message the way its comment says.  The handler checks neither `srcva` nor
`perm`, and it records `perm` in the target even if no page is mapped.  So it keeps to
the comment exactly when the caller asks for nothing improper, or is refused for another
reason, and asks for no permissions when no page can go over.
-/

namespace Jos

open Bytes

variable {avail held : Finset Nat} {own : Nat → Nat} {l fl : List Nat} {s s' s'' : Kernel}

namespace Kernel

/-- The kernel after a message for the environment `e` is recorded. -/
def delivered (s : Kernel) (cur e : Nat) (value perm : Word) : Kernel :=
  s.setEnv e { s.envs e with
    envIpcRecving := false
    envIpcDstva := BitVec.ofNat 32 UTOP
    envIpcFrom := (s.envs cur).envId
    envIpcValue := value
    envIpcPerm := perm
    envStatus := .ENV_RUNNABLE }

/-- The sender names a page, and the receiver `e` has asked for one. -/
def PageAsked (s : Kernel) (e : Nat) (srcva : Word) : Prop :=
  (s.envs e).envIpcDstva.toNat < UTOP ∧ srcva.toNat < UTOP

/-- The sender has no page at `srcva`, or only reads it and asks for write permission. -/
def SendRefused (s : Kernel) (cur : Nat) (srcva perm : Word) : Prop :=
  refOf (s.pteAt cur srcva) = none ∨ (perm &&& PTE_W ≠ 0 ∧ s.pteAt cur srcva &&& PTE_W = 0)

end Kernel

/-- What `sys_ipc_try_send` has done when it returns `r`. -/
inductive IpcDone (held : Finset Nat) (cur : Nat) (envid value srcva perm : Word) (s : Kernel) :
    Word → Kernel → Prop
  | badEnv (hfind : s.findEnv cur envid false = none) :
    IpcDone held cur envid value srcva perm s (-E_BAD_ENV) s
  | notRecv {e : Nat} (hfind : s.findEnv cur envid false = some e)
    (hrecv : (s.envs e).envIpcRecving = false) :
    IpcDone held cur envid value srcva perm s (-E_IPC_NOT_RECV) s
  | refused {e : Nat} (hfind : s.findEnv cur envid false = some e)
    (hrecv : (s.envs e).envIpcRecving = true) (hask : s.PageAsked e srcva)
    (href : s.SendRefused cur srcva perm) :
    IpcDone held cur envid value srcva perm s (-E_INVAL) s
  | noMem {e : Nat} (hfind : s.findEnv cur envid false = some e)
    (hrecv : (s.envs e).envIpcRecving = true) (hask : s.PageAsked e srcva)
    (hok : ¬ s.SendRefused cur srcva perm) :
    IpcDone held cur envid value srcva perm s (-E_NO_MEM) s
  | page {e : Fin NENV} {p : Nat} {s' : Kernel} (hfind : s.findEnv cur envid false = some e.val)
    (hrecv : (s.envs e).envIpcRecving = true) (hask : s.PageAsked e srcva)
    (hok : ¬ s.SendRefused cur srcva perm) (hp : refOf (s.pteAt cur srcva) = some p)
    (hedit : Edit held s s' (Function.update s.ptes (pteAddr e (s.envs e).envIpcDstva hask.1)
      (page2pa p ||| perm ||| PTE_P))) :
    IpcDone held cur envid value srcva perm s 0 (s'.delivered cur e value perm)
  | value {e : Fin NENV} (hfind : s.findEnv cur envid false = some e.val)
    (hrecv : (s.envs e).envIpcRecving = true) (hask : ¬ s.PageAsked e srcva) :
    IpcDone held cur envid value srcva perm s 0 (s.delivered cur e value perm)

/-! ### Recording a message -/

theorem ipcReceive_eq {cur : Nat} (hcur : s.curenv = some cur) (e : Nat) (value perm : Word) :
  ipcReceive e value perm s = .ok (0, s.delivered cur e value perm)
  := by
  rw [ipcReceive, Prog.bind_of_eq (curenv_eq hcur), Prog.modify_bind]
  rfl

/-- Recording a message keeps the page table entries. -/
theorem delivered_ptes {e : Nat} (hlive : s.Live e) (cur : Nat) (value perm : Word) :
  (s.delivered cur e value perm).ptes = s.ptes
  := by
  have hpg : (s.delivered cur e value perm).pgdir e = s.pgdir e := by
    rw [Kernel.delivered, Kernel.setEnv_pgdir, Kernel.pgdir, if_neg (by simp), if_neg hlive.2]
  obtain ⟨-, -, hpte, -⟩ := Kernel.setEnv_views hpg
  funext a
  exact hpte a.1 a.2.1 a.2.2

/-- Recording a message for a live environment keeps the kernel well formed. -/
theorem Wf.delivered (h : Wf avail held own s) {e : Nat} (hlive : s.Live e) (cur : Nat)
    (value perm : Word) :
  Wf avail held own (s.delivered cur e value perm)
  := by
  apply h.setEnv hlive.2
  · simp
  · rfl

/-! ### The system call -/

theorem Edit.live {f : PteAddr → Word} (h : Edit held s s' f) {e : Nat} (hlive : s.Live e) :
  s'.Live e
  := by
  rw [Kernel.Live, h.quiet.envs]
  exact hlive

/-- `sys_ipc_try_send` returns, and has refused the message or delivered it. -/
theorem sysIpcTrySend_ok (h : Wf avail held own s) {cur : Nat} (hcur : s.curenv = some cur)
    (hlive : s.Live cur) (envid value srcva perm : Word) :
  ∃ r s', sysIpcTrySend envid value srcva perm s = .ok (r, s')
    ∧ IpcDone held cur envid value srcva perm s r s'
    ∧ (perm.toNat < 4096 → s.Fits avail own → Wf avail held own s')
  := by
  obtain ⟨l, hl⟩ := h.mem
  obtain ⟨fl, hfl⟩ := h.env
  cases hfind : s.findEnv cur envid false with
  | none =>
      use -E_BAD_ENV, s
      constructor
      · rw [sysIpcTrySend, Prog.bind_of_eq (envid2env_eq hcur envid false), hfind]
        rfl
      · exact ⟨.badEnv hfind, fun _ _ => h⟩
  | some e =>
  have helive := findEnv_live hlive hfind
  obtain ⟨pg, henvpg, hpg⟩ := hlive.pgdir hfl
  obtain ⟨epg, heenvpg, hepg⟩ := helive.pgdir hfl
  have hrun : sysIpcTrySend envid value srcva perm s = (do
      let s ← get
      if (s.envs e).envIpcRecving = false then
        pure (-E_IPC_NOT_RECV)
      else if (s.envs e).envIpcDstva.toNat < UTOP ∧ srcva.toNat < UTOP then
        let pgdir ← curPgdir
        let r ← pageLookup pgdir srcva
        ipcSendPage e value perm r
      else
        ipcReceive e value perm : Prog Kernel Word) s := by
    rw [sysIpcTrySend, Prog.bind_of_eq (envid2env_eq hcur envid false), hfind]
  rw [hrun, Prog.get_bind]
  by_cases hrecv : (s.envs e).envIpcRecving = false
  · use -E_IPC_NOT_RECV, s
    rw [if_pos hrecv]
    exact ⟨rfl, .notRecv hfind hrecv, fun _ _ => h⟩
  rw [if_neg hrecv]
  rw [Bool.not_eq_false] at hrecv
  by_cases hask : (s.envs e).envIpcDstva.toNat < UTOP ∧ srcva.toNat < UTOP
  case neg =>
    use 0, s.delivered cur e value perm
    rw [if_neg hask]
    exact ⟨ipcReceive_eq hcur e value perm, .value (e := ⟨e, helive.1⟩) hfind hrecv hask,
      fun _ _ => h.delivered helive cur value perm⟩
  rw [if_pos hask, Prog.bind_of_eq (curPgdir_eq hcur henvpg)]
  cases hp : refOf (s.pteAt cur srcva) with
  | none =>
      use -E_INVAL, s
      rw [Prog.bind_of_eq (pageLookup_eq_none hl (e := ⟨cur, hlive.1⟩) hpg hask.2 hp)]
      exact ⟨rfl, .refused hfind hrecv hask (Or.inl hp), fun _ _ => h⟩
  | some p =>
  obtain ⟨pt, -, hentry, hlookup⟩ :=
    pageLookup_eq_some hl (e := ⟨cur, hlive.1⟩) hpg hask.2 hp
  rw [Prog.bind_of_eq hlookup, ipcSendPage, Prog.get_bind, hentry]
  by_cases hw : perm &&& PTE_W ≠ 0 ∧ s.pteAt cur srcva &&& PTE_W = 0
  · use -E_INVAL, s
    rw [if_pos hw]
    exact ⟨rfl, .refused hfind hrecv hask (Or.inr hw), fun _ _ => h⟩
  have hok : ¬ s.SendRefused cur srcva perm := by
    rintro (hnone | href)
    · rw [hp] at hnone
      cases hnone
    · exact hw href
  have hpp : s.Shareable held p := shareable_of_mapped (e := ⟨cur, hlive.1⟩) hask.2 hp
  rw [if_neg hw, Prog.bind_of_eq (envPgdirOf_eq heenvpg)]
  obtain ⟨hins, -⟩ | ⟨s1, hins, hedit, hinv⟩ :=
    pageInsert_ok (e := ⟨e, helive.1⟩) hl hepg hask.1 (hl.shareable hpp) perm
  · use -E_NO_MEM, s
    rw [Prog.bind_of_eq hins]
    exact ⟨rfl, .noMem hfind hrecv hask hok, fun _ _ => h⟩
  · have hcur1 : s1.curenv = some cur := by
      rw [hedit.quiet.curenv]
      exact hcur
    use 0, s1.delivered cur e value perm
    rw [Prog.bind_of_eq hins]
    constructor
    · exact ipcReceive_eq hcur1 e value perm
    constructor
    · exact .page (e := ⟨e, helive.1⟩) hfind hrecv hask hok hp hedit
    · intro hperm hfits
      have hnot : p ∉ held := hl.mapped_notHeld (e := ⟨cur, hlive.1⟩) hask.2 hp
      have hmem := hinv hperm hfits
      rw [Finset.erase_eq_of_notMem hnot] at hmem
      exact (h.edit hedit hmem).delivered (hedit.live helive) cur value perm

/-! ### What a message grants -/

/-- The sender names a page in a way the comment on `sys_ipc_try_send` forbids. -/
def ImproperSend (srcva perm : Word) : Prop :=
  srcva.toNat < UTOP ∧ (srcva.toNat % PGSIZE ≠ 0 ∨ ¬ ProperPerm perm)

/-- The entry `pte'` that the receiver gets maps the page the sender's entry `pte` maps,
with flags a system call may set, and is writeable only if `pte` is. -/
structure ProperGrant (pte pte' : Word) : Prop where
  present : pte &&& PTE_P ≠ 0
  page : ptePage pte' = ptePage pte
  flags : (pte' &&& 0xFFF) &&& ~~~ PTE_SYSCALL = 0
  ptep : pte' &&& PTE_P ≠ 0
  pteu : pte' &&& PTE_U ≠ 0
  writeable : pte' &&& PTE_W ≠ 0 → pte &&& PTE_W ≠ 0

/-- A send from `cur` that returned `r` grants what it should: an improper one is refused
without an effect; a message that is delivered says that a page was mapped exactly if one
was, maps the sender's page properly, and changes no other page table entry. -/
structure ProperSend (cur : Fin NENV) (envid srcva perm : Word) (s : Kernel) (r : Word)
    (s' : Kernel) : Prop where
  refused : ImproperSend srcva perm → r = -E_INVAL ∧ s' = s
  told : r = 0 → ∀ e : Fin NENV, s.findEnv cur envid false = some e.val →
    ((s'.envs e).envIpcPerm ≠ 0 ↔ s.PageAsked e srcva)
  granted : r = 0 → ∀ e : Fin NENV, s.findEnv cur envid false = some e.val →
    ∀ hask : s.PageAsked e srcva, srcva.toNat % PGSIZE = 0 ∧
      ProperGrant (s.ptes (pteAddr cur srcva hask.2))
        (s'.ptes (pteAddr e (s.envs e).envIpcDstva hask.1))
  frame : r = 0 → ∀ a, (∀ e : Fin NENV, s.findEnv cur envid false = some e.val →
    ∀ hask : s.PageAsked e srcva, a ≠ pteAddr e (s.envs e).envIpcDstva hask.1) →
    s'.ptes a = s.ptes a

/-- What a send must ask for: nothing improper, unless the receiver has asked for a page
and the send is refused anyway; and no permissions if the receiver waits and no page can
go over. -/
structure SendsWell (cur : Fin NENV) (envid srcva perm : Word) (s : Kernel) : Prop where
  proper : ImproperSend srcva perm → ∃ e : Fin NENV, s.findEnv cur envid false = some e.val
    ∧ (s.envs e).envIpcRecving = true ∧ s.PageAsked e srcva ∧ s.SendRefused cur srcva perm
  noPage : ∀ e : Fin NENV, s.findEnv cur envid false = some e.val →
    (s.envs e).envIpcRecving = true → ¬ s.PageAsked e srcva → perm = 0

theorem ProperPerm.ne_zero {perm : Word} (h : ProperPerm perm) :
  perm ≠ 0
  := by
  rintro rfl
  exact h.1 (by decide)

/-- The entry made for the sender's page with proper permissions. -/
theorem properGrant_mk {pte perm : Word} {p : Nat} (hp : refOf pte = some p) (hlt : p < 2 ^ 20)
    (hperm : ProperPerm perm) (hw : perm &&& PTE_W ≠ 0 → pte &&& PTE_W ≠ 0) :
  ProperGrant pte (page2pa p ||| perm ||| PTE_P)
  := by
  obtain ⟨hpres, hpage⟩ := refOf_eq_some.mp hp
  have hflags := flags_mk p hperm.2.1 hperm.2.2
  have hbit : ∀ b : Word, b &&& 0xFFF = b →
      (page2pa p ||| perm ||| PTE_P) &&& b = perm &&& b := by
    intro b hb
    calc
      (page2pa p ||| perm ||| PTE_P) &&& b
        = (page2pa p ||| perm ||| PTE_P) &&& (0xFFF &&& b) := by rw [BitVec.and_comm 0xFFF, hb]
      _ = perm &&& b := by rw [← BitVec.and_assoc, hflags]
  constructor
  case present => exact hpres
  case page => rw [ptePage_mk hlt hperm.lt, hpage]
  case flags =>
    rw [hflags]
    exact hperm.2.2
  case ptep =>
    rw [hbit PTE_P (by decide)]
    exact hperm.2.1
  case pteu =>
    rw [hbit PTE_U (by decide)]
    exact hperm.1
  case writeable =>
    rw [hbit PTE_W (by decide)]
    exact hw

/-- The message the receiver gets. -/
theorem delivered_envIpcPerm (s : Kernel) (cur e : Nat) (value perm : Word) :
  ((s.delivered cur e value perm).envs e).envIpcPerm = perm
  := by
  simp only [Kernel.delivered, Kernel.setEnv, Function.update_self]

/-- A send that asks for the right things grants what it should. -/
theorem IpcDone.proper (h : Wf avail held own s) {cur : Fin NENV} {envid value srcva perm r : Word}
    (hdone : IpcDone held cur envid value srcva perm s r s') (hlive : s.Live cur)
    (hwell : SendsWell cur envid srcva perm s) :
  ProperSend cur envid srcva perm s r s'
  := by
  have hbad : ∀ r : Word, r = -E_BAD_ENV ∨ r = -E_IPC_NOT_RECV ∨ r = -E_NO_MEM → r ≠ 0 := by
    rintro r (rfl | rfl | rfl)
    · decide
    · decide
    · decide
  have hproper : ∀ {e : Nat}, s.findEnv cur envid false = some e →
      ¬ ((s.envs e).envIpcRecving = true ∧ s.PageAsked e srcva ∧ s.SendRefused cur srcva perm) →
      ¬ ImproperSend srcva perm := by
    intro e hfind hno himp
    obtain ⟨e', hfind', h'⟩ := hwell.proper himp
    rw [hfind] at hfind'
    obtain rfl := Option.some.inj hfind'
    exact hno h'
  have herror : ∀ r : Word, r ≠ 0 → ¬ ImproperSend srcva perm →
      ProperSend cur envid srcva perm s r s := by
    intro r hr himp
    constructor
    case refused => exact fun h => (himp h).elim
    case told => exact fun h => (hr h).elim
    case granted => exact fun h => (hr h).elim
    case frame => exact fun h => (hr h).elim
  cases hdone with
  | badEnv hfind =>
      apply herror _ (by decide)
      intro himp
      obtain ⟨e, hfind', -⟩ := hwell.proper himp
      rw [hfind] at hfind'
      cases hfind'
  | notRecv hfind hrecv =>
      apply herror _ (by decide)
      apply hproper hfind
      rintro ⟨hrecv', -⟩
      rw [hrecv] at hrecv'
      cases hrecv'
  | refused hfind hrecv hask href =>
      constructor
      case refused => exact fun _ => ⟨rfl, rfl⟩
      case told => exact fun h => absurd h (by decide)
      case granted => exact fun h => absurd h (by decide)
      case frame => exact fun h => absurd h (by decide)
  | noMem hfind hrecv hask hok =>
      apply herror _ (by decide)
      apply hproper hfind
      rintro ⟨-, -, href⟩
      exact hok href
  | @page e p s1 hfind hrecv hask hok hp hedit =>
      have himp : ¬ ImproperSend srcva perm := by
        apply hproper hfind
        rintro ⟨-, -, href⟩
        exact hok href
      obtain ⟨halign, hperm⟩ : srcva.toNat % PGSIZE = 0 ∧ ProperPerm perm := by
        by_contra hno
        apply himp
        use hask.2
        by_contra hor
        apply hno
        simpa [not_or] using hor
      have helive := findEnv_live hlive hfind
      have hunique : ∀ e' : Fin NENV, s.findEnv cur envid false = some e'.val → e' = e := by
        intro e' hfind'
        rw [hfind] at hfind'
        exact Fin.ext (Option.some.inj hfind').symm
      have hptes := delivered_ptes (hedit.live helive) cur.val value perm
      rw [hedit.ptes] at hptes
      constructor
      case refused => exact fun h => (himp h).elim
      case told =>
        intro _ e' hfind'
        obtain rfl := hunique e' hfind'
        rw [delivered_envIpcPerm]
        exact ⟨fun _ => hask, fun _ => hperm.ne_zero⟩
      case granted =>
        intro _ e' hfind' hask'
        obtain rfl := hunique e' hfind'
        use halign
        rw [hptes, Function.update_self]
        obtain ⟨l, hl⟩ := h.mem
        have hlt := Kernel.lt_npages hl (p := p)
          (x := .page cur ⟨PDX srcva, PDX_lt_of_lt_UTOP hask.2⟩ ⟨PTX srcva, PTX_lt srcva⟩) hp
        have hn := hl.npages_le
        apply properGrant_mk hp (by omega) hperm
        intro hw hw'
        exact hok (Or.inr ⟨hw, hw'⟩)
      case frame =>
        intro _ a ha
        rw [hptes, Function.update_of_ne (ha e hfind hask)]
  | @value e hfind hrecv hask =>
      have himp : ¬ ImproperSend srcva perm := by
        apply hproper hfind
        rintro ⟨-, hask', -⟩
        exact hask hask'
      have helive := findEnv_live hlive hfind
      have hunique : ∀ e' : Fin NENV, s.findEnv cur envid false = some e'.val → e' = e := by
        intro e' hfind'
        rw [hfind] at hfind'
        exact Fin.ext (Option.some.inj hfind').symm
      constructor
      case refused => exact fun h => (himp h).elim
      case told =>
        intro _ e' hfind'
        obtain rfl := hunique e' hfind'
        rw [delivered_envIpcPerm]
        constructor
        · exact fun hne => absurd (hwell.noPage e' hfind hrecv hask) hne
        · exact fun hask' => (hask hask').elim
      case granted =>
        intro _ e' hfind' hask'
        obtain rfl := hunique e' hfind'
        exact (hask hask').elim
      case frame =>
        intro _ a _
        rw [delivered_ptes helive]

/-- A send that grants what it should has asked for the right things. -/
theorem IpcDone.sendsWell {cur : Fin NENV} {envid value srcva perm r : Word}
    (hdone : IpcDone held cur envid value srcva perm s r s') (hlive : s.Live cur)
    (hsend : ProperSend cur envid srcva perm s r s') :
  SendsWell cur envid srcva perm s
  := by
  constructor
  case proper =>
    intro himp
    obtain ⟨hr, -⟩ := hsend.refused himp
    cases hdone with
    | badEnv => exact absurd hr (by decide)
    | notRecv => exact absurd hr (by decide)
    | @refused e hfind hrecv hask href =>
        exact ⟨⟨e, (findEnv_live hlive hfind).1⟩, hfind, hrecv, hask, href⟩
    | noMem => exact absurd hr (by decide)
    | page => exact absurd hr (by decide)
    | value => exact absurd hr (by decide)
  case noPage =>
    intro e hfind hrecv hask
    have hunique : ∀ {e' : Nat}, s.findEnv cur envid false = some e' → e' = e := by
      intro e' hfind'
      rw [hfind] at hfind'
      exact (Option.some.inj hfind').symm
    cases hdone with
    | badEnv hfind' =>
        rw [hfind] at hfind'
        cases hfind'
    | notRecv hfind' hrecv' =>
        rw [hunique hfind', hrecv] at hrecv'
        cases hrecv'
    | refused hfind' _ hask' =>
        rw [hunique hfind'] at hask'
        exact (hask hask').elim
    | noMem hfind' _ hask' =>
        rw [hunique hfind'] at hask'
        exact (hask hask').elim
    | page hfind' _ hask' =>
        rw [hunique hfind'] at hask'
        exact (hask hask').elim
    | @value e' hfind' =>
        have htold := hsend.told rfl e' hfind'
        rw [delivered_envIpcPerm, hunique hfind'] at htold
        by_contra hne
        exact hask (htold.mp hne)

/-- A send grants what it should exactly if it asks for the right things. -/
theorem sysIpcTrySend_proper (h : Wf avail held own s) (cur : Fin NENV)
    (hcur : s.curenv = some cur.val) (hlive : s.Live cur) (envid value srcva perm : Word) :
  (∃ r s', sysIpcTrySend envid value srcva perm s = .ok (r, s')
    ∧ ProperSend cur envid srcva perm s r s') ↔ SendsWell cur envid srcva perm s
  := by
  obtain ⟨r, s', heq, hdone, -⟩ := sysIpcTrySend_ok h hcur hlive envid value srcva perm
  constructor
  · rintro ⟨r', s'', heq', hsend⟩
    obtain ⟨rfl, rfl⟩ := Prog.ok_inj heq heq'
    exact hdone.sendsWell hlive hsend
  · intro hwell
    exact ⟨r, s', heq, hdone.proper h hlive hwell⟩

/-- The second environment waits for a message without a page, and the first one runs. -/
structure Waiting (s : Kernel) : Prop where
  wf : Wf (bootAvail 2) ∅ (fun _ => 0) s
  curenv : s.curenv = some 0
  live : s.Live 0
  found : s.findEnv 0 0x1001 false = some 1
  recving : (s.envs 1).envIpcRecving = true
  dstva : (s.envs 1).envIpcDstva = BitVec.ofNat 32 UTOP

/-- An environment that waits for a message without a page can be reached from boot. -/
theorem waiting_ok :
  ∃ s0 s1, firstEnvs (bootKernel 2) = .ok ((), s0)
    ∧ sysIpcRecv (BitVec.ofNat 32 UTOP) (s0.running 1) = .ok (0, s1)
    ∧ Waiting (s1.running 0)
  := by
  obtain ⟨s0, heq0, htwo, -⟩ := firstEnvs_ok (n := 2) (by decide) (by decide)
  obtain ⟨hlive0, -⟩ := htwo.live 0 (by decide)
  obtain ⟨hlive1, hid, -⟩ := htwo.live 1 (by decide)
  obtain ⟨st, cpu, runs, henv1, -, hst⟩ := s0.running_envs 1 1
  obtain ⟨st', cpu', runs', henv0, hfree, -⟩ := s0.running_envs 1 0
  have hwf1 := htwo.wf.running hlive1
  -- the state in which the second environment has called `sys_ipc_recv`
  let s1 := (s0.running 1).setEnv 1 { (s0.running 1).envs 1 with
    envIpcDstva := BitVec.ofNat 32 UTOP
    envIpcRecving := true
    envIpcValue := 0
    envIpcFrom := 0
    envIpcPerm := 0
    envStatus := .ENV_NOT_RUNNABLE }
  have hlive1' : ((s0.running 1).envs 1).envStatus ≠ .ENV_FREE := by
    rw [henv1, hst rfl]
    simp
  have hwf : Wf (bootAvail 2) ∅ (fun _ => 0) s1 := by
    apply hwf1.setEnv hlive1'
    · simp
    · rfl
  have henvs1 : s1.envs 1 = { (s0.running 1).envs 1 with
      envIpcDstva := BitVec.ofNat 32 UTOP
      envIpcRecving := true
      envIpcValue := 0
      envIpcFrom := 0
      envIpcPerm := 0
      envStatus := .ENV_NOT_RUNNABLE } := Kernel.setEnv_envs_self _ 1 _
  have henvs0 : s1.envs 0 = (s0.running 1).envs 0 := Kernel.setEnv_envs_of_ne _ _ (by decide)
  have hlive : s1.Live 0 := by
    use by decide
    rw [henvs0, henv0]
    exact fun h => hlive0.2 (hfree h)
  obtain ⟨st2, cpu2, runs2, hrun1, hfree1, -⟩ := s1.running_envs 0 1
  obtain ⟨st3, cpu3, runs3, hrun0, hfree0, -⟩ := s1.running_envs 0 0
  use s0, s1, heq0
  constructor
  · have hcur : (s0.running 1).curenv = some 1 := rfl
    rw [sysIpcRecv, if_neg (by decide), Prog.bind_of_eq (curenv_eq hcur), Prog.modify_bind]
    rfl
  · constructor
    case wf => exact hwf.running hlive
    case curenv => rfl
    case live =>
      use by decide
      rw [hrun0]
      exact fun h => hlive.2 (hfree0 h)
    case found =>
      have henvx : ENVX 0x1001 = 1 := by decide
      rw [Kernel.findEnv, henvx, hrun1, henvs1, henv1, hid]
      simp only
      rw [if_neg (by decide), if_neg, if_neg (by simp)]
      rintro (h | h)
      · have hnot := hfree1 h
        rw [henvs1] at hnot
        cases hnot
      · exact h (by decide)
    case recving => rw [hrun1, henvs1]
    case dstva => rw [hrun1, henvs1]

theorem sysIpcTrySend_proper_waiting :
  ∃ s, Waiting s ∧ ((∃ r s', sysIpcTrySend 0x1001 7 (BitVec.ofNat 32 UTOP) 0 s = .ok (r, s')
    ∧ ProperSend ⟨0, by decide⟩ 0x1001 (BitVec.ofNat 32 UTOP) 0 s r s')
      ↔ SendsWell ⟨0, by decide⟩ 0x1001 (BitVec.ofNat 32 UTOP) 0 s)
  := by
  obtain ⟨s0, s1, -, -, hw⟩ := waiting_ok
  use s1.running 0, hw
  exact sysIpcTrySend_proper hw.wf ⟨0, by decide⟩ hw.curenv hw.live 0x1001 7
    (BitVec.ofNat 32 UTOP) 0

/-- Not every send grants what it should: the receiver is told of a page though none was
mapped. -/
theorem not_sysIpcTrySend_proper :
  ¬ ∀ avail held own (s : Kernel) (cur : Fin NENV) (envid value srcva perm : Word),
    Wf avail held own s → s.curenv = some cur.val → s.Live cur →
    ∃ r s', sysIpcTrySend envid value srcva perm s = .ok (r, s')
      ∧ ProperSend cur envid srcva perm s r s'
  := by
  intro hall
  obtain ⟨s0, s1, -, -, hw⟩ := waiting_ok
  obtain ⟨r, s', heq, hsend⟩ := hall _ _ _ (s1.running 0) ⟨0, by decide⟩ 0x1001 7
    (BitVec.ofNat 32 UTOP) 1 hw.wf hw.curenv hw.live
  obtain ⟨r', s'', heq', hdone, -⟩ := sysIpcTrySend_ok hw.wf hw.curenv hw.live 0x1001 7
    (BitVec.ofNat 32 UTOP) 1
  obtain ⟨rfl, rfl⟩ := Prog.ok_inj heq heq'
  have hwell := IpcDone.sendsWell hdone hw.live hsend
  have hperm := hwell.noPage ⟨1, by decide⟩ hw.found hw.recving
    (fun hask => absurd hask.2 (by decide))
  exact absurd hperm (by decide)

end Jos
