import Jos.Root.First

/-!
# Sending a message

`sys_ipc_try_send` in `kern/syscall.c` does what its comment says, with one exception: when a page
table for the target can not be had, it returns `-E_INVAL` where the comment has `-E_NO_MEM`.
-/

namespace Jos

namespace Root

open Bytes Prog

variable {binary : Program → Binary} {s : Kernel} {cur : Nat} {envid srcva perm : Word}

/-! ### The exception -/

/-- All that is missing to send the page is a page table for the target, and no page is free. -/
def ShortOfPages (s : Kernel) (cur : Nat) (envid srcva perm : Word) : Prop :=
  ∃ e, Names s cur envid e ∧ (s.envs e).envIpcRecving = true ∧ srcva.toNat < UTOP
    ∧ ¬ PageRefused s cur srcva perm ∧ NoTable s e

theorem Names.unique {e e' : Nat} (h : Names s cur envid e) (h' : Names s cur envid e') :
  e = e'
  := by
  rw [names_iff] at h h'
  rw [h] at h'
  exact Option.some.inj h'

/-- When a page table can not be had, the error is the one for it. -/
theorem Sends.short {full value r : Word} {held : Finset Nat} {s' : Kernel}
    (h : Sends full held cur envid value srcva perm s (.ok (r, s')))
    (hshort : ShortOfPages s cur envid srcva perm) :
  r = full
  := by
  obtain ⟨e, hname, hrecv, hsrc, hgood, hno⟩ := hshort
  generalize hres : (Except.ok (r, s') : Except (Stop Kernel) (Word × Kernel)) = res at h
  cases h with
  | badEnv hnone => exact (hnone e hname).elim
  | notRecv hname' hrecv' =>
      obtain rfl := hname.unique hname'
      rw [hrecv] at hrecv'
      cases hrecv'
  | inval _ _ _ hbad => exact (hgood hbad).elim
  | noTable =>
      cases hres
      rfl
  | value hname' _ hva =>
      obtain rfl := hname.unique hname'
      have hge := (hva hsrc).2
      have hlt := hno.1
      omega
  | page hname' _ _ _ hroom =>
      have he := hname.unique hname'
      exact (hroom (he ▸ hno)).elim

/-- Otherwise it does not matter what the error for it is. -/
theorem Sends.not_short {full full' value : Word} {held : Finset Nat}
    {res : Except (Stop Kernel) (Word × Kernel)}
    (h : Sends full held cur envid value srcva perm s res)
    (hshort : ¬ ShortOfPages s cur envid srcva perm) :
  Sends full' held cur envid value srcva perm s res
  := by
  cases h with
  | badEnv hnone => exact .badEnv hnone
  | notRecv hname hrecv => exact .notRecv hname hrecv
  | inval hname hrecv hsrc hbad => exact .inval hname hrecv hsrc hbad
  | noTable hname hrecv hsrc hgood hno => exact (hshort ⟨_, hname, hrecv, hsrc, hgood, hno⟩).elim
  | value hname hrecv hva => exact .value hname hrecv hva
  | page hname hrecv hsrc hgood hroom hva hp ho hedit =>
      exact .page hname hrecv hsrc hgood hroom hva hp ho hedit

/-! ### The contract -/

section Run

variable {m : Machine} {c : Nat} {tf : Trapframe} (hlink : ∀ p, Linked (binary p))
  (hm : Reachable binary Orderly m) (hok : Orderly m c (.trap tf)) (hcur : m.cpuEnv c = some cur)
include hlink hm hok hcur

/-- In orderly runs sending a message returns. -/
theorem Reachable.sends (envid value srcva perm : Word) :
  ∃ r s', sysIpcTrySend envid value srcva perm (entered (m.on c).kernel cur tf) = .ok (r, s')
    ∧ Sends (-E_INVAL) ∅ cur envid value srcva perm (entered (m.on c).kernel cur tf) (.ok (r, s'))
  := by
  obtain ⟨avail, hwf⟩ := hm.wf hlink (fun _ _ _ h => h)
  have hlive : (m.on c).kernel.Live cur := hok.settled.env c cur hcur
  have hfits : Fits avail (m.on c).kernel :=
    fits_sameTables (Kernel.SameTables.of_mem rfl rfl rfl) (hok.noOverflow.fits avail)
  have hlive' : (entered (m.on c).kernel cur tf).Live cur := by
    use hlive.1
    simp only [entered, Kernel.setEnv, Function.update_self]
    exact hlive.2
  obtain ⟨r, s', heq, hsends, -⟩ := sysIpcTrySend_sends ((Machine.wf_on hwf c).entered hlive tf)
    (fits_entered hfits cur tf) rfl hlive' envid value srcva perm
  exact ⟨r, s', heq, hsends⟩

/-- Without a page for the page table, a message is not sent as the comment says. -/
theorem Reachable.not_sends {envid value srcva perm : Word}
    (hshort : ShortOfPages (entered (m.on c).kernel cur tf) cur envid srcva perm) :
  ¬ Sends (-E_NO_MEM) ∅ cur envid value srcva perm (entered (m.on c).kernel cur tf)
    (sysIpcTrySend envid value srcva perm (entered (m.on c).kernel cur tf))
  := by
  obtain ⟨r, s', heq, hsends⟩ := hm.sends hlink hok hcur envid value srcva perm
  rw [heq]
  intro hdoc
  have hinval := hsends.short hshort
  have hnoMem := hdoc.short hshort
  rw [hinval] at hnoMem
  exact absurd hnoMem (by decide)

/-- In orderly runs a message is sent as the comment says if and only if no page table is missing
that can not be had. -/
theorem sysIpcTrySend_documented_iff (envid value srcva perm : Word) :
  Sends (-E_NO_MEM) ∅ cur envid value srcva perm (entered (m.on c).kernel cur tf)
      (sysIpcTrySend envid value srcva perm (entered (m.on c).kernel cur tf))
    ↔ ¬ ShortOfPages (entered (m.on c).kernel cur tf) cur envid srcva perm
  := by
  constructor
  · exact fun hdoc hshort => hm.not_sends hlink hok hcur hshort hdoc
  · intro hshort
    obtain ⟨r, s', heq, hsends⟩ := hm.sends hlink hok hcur envid value srcva perm
    rw [heq]
    exact hsends.not_short hshort

end Run

/-- The parent may send a page of its stack, and its child is found. -/
theorem Family.sendable {a : Nat} {c : Fin NENV} (h : Family s a c) {envid : Word}
    (hid : (s.envs c).envId = envid) :
  Names s a envid c ∧ ¬ PageRefused s a stackVa 5
  := by
  constructor
  · rw [names_iff, ← hid]
    exact h.findEnv false
  · rintro (hbad | hbad | hbad | ⟨hbad, -⟩)
    · exact hbad (by decide)
    · apply hbad
      constructor
      · decide
      · decide
    · exact h.stack hbad
    · exact hbad (by decide)

/-- With a page left for the page table, a page of the parent's stack is mapped in its child. -/
theorem Family.page_sent {avail : Finset Nat} {a : Nat} {c : Fin NENV} {full value : Word}
    {res : Except (Stop Kernel) (Word × Kernel)} (h : Family s a c) (hwf : Wf avail ∅ s)
    (hid : (s.envs c).envId = envid) (hrecv : (s.envs c).envIpcRecving = true)
    (hdst : (s.envs c).envIpcDstva = 0) (hroom : s.pageFreeList ≠ none)
    (hdoc : Sends full ∅ a envid value stackVa 5 s res) :
  ∃ p s', res = .ok (0, s') ∧ refOf (s.pteAt a stackVa) = some p ∧ refOf (s'.pteAt c 0) = some p
    ∧ (s'.envs c).envIpcRecving = false ∧ (s'.envs c).envIpcValue = value
    ∧ (s'.envs c).envIpcPerm = 5
  := by
  obtain ⟨hname, hgood⟩ := h.sendable hid
  cases hdoc with
  | badEnv hnone => exact (hnone c hname).elim
  | notRecv hname' hrecv' =>
      obtain rfl := hname.unique hname'
      rw [hrecv] at hrecv'
      cases hrecv'
  | inval _ _ _ hbad => exact (hgood hbad).elim
  | noTable _ _ _ _ hno => exact (hroom hno.2.2).elim
  | value hname' _ hva =>
      obtain rfl := hname.unique hname'
      have hge := (hva (by decide)).2
      rw [hdst] at hge
      exact absurd hge (by decide)
  | @page e p s1 hname' _ _ _ _ hva hp _ hedit =>
      obtain rfl := Fin.ext (hname.unique hname')
      obtain ⟨l, hl⟩ := hwf.mem
      have hx : s.slotRef (.page ⟨a, h.parent.1⟩ ⟨PDX stackVa, by decide⟩ ⟨PTX stackVa, by decide⟩)
          = some p := hp
      have hlt := hl.avail_lt p (Kernel.mem_avail hl hx)
      have hle := hl.npages_le
      have hself : (s1.envs c).envStatus ≠ .ENV_FREE := by
        rw [hedit.quiet]
        exact h.child.2
      have hpg : (delivered s1 a c value 5).pgdir c = s1.pgdir c := by
        rw [delivered, Kernel.setEnv_pgdir, if_neg (by simp), Kernel.pgdir, if_neg hself]
      have hpte := congrFun hedit.ptes (pteAddr c (s.envs c).envIpcDstva hva)
      rw [Function.update_self, ptes_pteAddr, hdst] at hpte
      use p, delivered s1 a c value 5, rfl, hp
      constructor
      · rw [Kernel.pteAt, delivered, (Kernel.setEnv_views hpg).2.2.1, ← Kernel.pteAt, hpte]
        exact refOf_mk (by omega) (by decide)
      · rw [delivered, s1.setEnv_envs_self]
        exact ⟨rfl, rfl, rfl⟩

/-- The parent of a run sends a page to its child, which waits for one. -/
theorem sysIpcTrySend_documented_boot :
  ∃ m a c envid p s', Reachable (fun _ => smallImage) Orderly m
    ∧ sysIpcTrySend envid 7 stackVa 5 (entered (m.on 0).kernel a (asking 11 envid 7 stackVa 5))
      = .ok (0, s')
    ∧ refOf ((entered (m.on 0).kernel a (asking 11 envid 7 stackVa 5)).pteAt a stackVa) = some p
    ∧ refOf (s'.pteAt c 0) = some p ∧ (s'.envs c).envIpcRecving = false
    ∧ (s'.envs c).envIpcValue = 7 ∧ (s'.envs c).envIpcPerm = 5
  := by
  obtain ⟨m, a, c, hm, hf, hrecv, hdst, hroom⟩ := exists_at_expecting
  generalize hid : (m.kernel.envs c).envId = envid
  have hwf0 := hm.wf.entered hm.live (asking 11 envid 7 stackVa 5)
  have hf0 := hf.entered hm.wf (Or.inl rfl) hm.live (asking 11 envid 7 stackVa 5)
  have henv0 : (entered m.kernel a (asking 11 envid 7 stackVa 5)).envs c = m.kernel.envs c := by
    simp only [entered, Kernel.setEnv, Function.update_of_ne hf.ne.symm]
  have hok : Orderly m 0 (.trap (asking 11 envid 7 stackVa 5)) :=
    hm.orderly envid 7 stackVa 5 rfl (by simp)
  have hdoc := (sysIpcTrySend_documented_iff (fun _ => smallImage_linked) hm.orderlyRun hok
    hm.cpuEnv_self envid 7 stackVa 5).mpr (by
      rintro ⟨-, -, -, -, -, -, -, hnone⟩
      exact hroom hnone)
  rw [← henv0] at hid hrecv hdst
  obtain ⟨p, s', hsent⟩ := hf0.page_sent hwf0 hid hrecv hdst hroom hdoc
  exact ⟨m, a, c, envid, p, s', hm.orderlyRun, hsent⟩

/-- In a run in which no page is left the parent can not send a page to its child, and is told
that an argument is bad. -/
theorem not_sysIpcTrySend_documented :
  ¬ ∀ (binary : Program → Binary) (m : Machine) (c cur : Nat) (tf : Trapframe)
      (envid value srcva perm : Word), (∀ p, Linked (binary p)) → Reachable binary Orderly m →
    Orderly m c (.trap tf) → m.cpuEnv c = some cur →
    Sends (-E_NO_MEM) ∅ cur envid value srcva perm (entered (m.on c).kernel cur tf)
      (sysIpcTrySend envid value srcva perm (entered (m.on c).kernel cur tf))
  := by
  intro hall
  obtain ⟨m, a, c, hm, hf, hrecv, hdst, hnone⟩ := exists_at_waiting
  generalize hid : (m.kernel.envs c).envId = envid
  have hok : Orderly m 0 (.trap (asking 11 envid 0 stackVa 5)) :=
    hm.orderly envid 0 stackVa 5 rfl (by simp)
  have hdoc := hall _ m 0 a _ envid 0 stackVa 5 (fun _ => smallImage_linked) hm.orderlyRun hok
    hm.cpuEnv_self
  apply hm.orderlyRun.not_sends (fun _ => smallImage_linked) hok hm.cpuEnv_self _ hdoc
  have hf0 : Family (entered (m.on 0).kernel a (asking 11 envid 0 stackVa 5)) a c :=
    hf.entered hm.wf (Or.inl rfl) hm.live (asking 11 envid 0 stackVa 5)
  have henv0 : (entered (m.on 0).kernel a (asking 11 envid 0 stackVa 5)).envs c = m.kernel.envs c := by
    simp only [entered, Kernel.setEnv, Function.update_of_ne hf.ne.symm]
    rfl
  rw [← henv0] at hid hrecv hdst
  obtain ⟨hname, hgood⟩ := hf0.sendable hid
  refine ⟨c, hname, hrecv, by decide, hgood, ?_, ?_, hnone⟩
  · rw [hdst]
    decide
  · rw [hdst, hf0.fresh _ (by decide), refOf_zero]

end Root

end Jos
