import Jos.Root.Overwritten

/-!
# Accounting for the pages of the kernel in `kern/`

The counters of pages and the list of free pages, in the runs of a kernel without guests: after
boot environments are created and freed, and those that run make system calls, in any order and
with any arguments.

After each of them the counter of a page is the number of its mappings below `UTOP`, one more for
a page of the paging structures, and the page is on the free list once if nothing refers to it, and
not on the list otherwise.  This depends on the stack pointer with which `sys_envreplace` is
called: the kernel pushes the arguments of the new program with its own rights, wherever the stack
pointer points to, and it may point to page tables.
-/

namespace Jos

namespace Root

open Bytes Prog

variable {avail : Finset Nat} {binary : Program → Binary} {s s' : Kernel}

/-- The pages `avail` are accounted for, and nobody has any of them in hand. -/
def Accounted (avail : Finset Nat) (s : Kernel) : Prop :=
  ({ kernel := s } : Ledger).Accounted avail

/-! ### Calls -/

/-- What is called: the functions that create and free environments, or a system call. -/
inductive Call where
  | env_alloc (parentId : Word)
  | env_free (e : Nat)
  | sys_exofork
  | sys_env_destroy (envid : Word)
  | sys_page_alloc (envid va perm : Word)
  | sys_page_map (srcenvid srcva dstenvid dstva perm : Word)
  | sys_page_unmap (envid va : Word)
  | sys_ipc_try_send (envid value srcva perm : Word)
  | sys_envreplace (x args argc : Word)

/-- Free the environment `e`. When it is the current one it is not any more, as its callers see
to. -/
def envFreeCurrent (e : Nat) : Prog Kernel Unit := do
  envFree e
  let s ← get
  if s.curenv = some e then
    modify (fun s => { s with curenv := none })
  else
    pure ()

/-- Run a procedure for what it does. -/
def ignoring {α : Type} (m : Prog Kernel α) : Prog Kernel Unit := do
  let _ ← m
  pure ()

namespace Call

/-- What a call does. -/
def run (binary : Program → Binary) : Call → Prog Kernel Unit
  | env_alloc parentId => ignoring (envAlloc parentId)
  | env_free e => envFreeCurrent e
  | sys_exofork => ignoring sysExofork
  | sys_env_destroy envid => ignoring (sysEnvDestroy envid)
  | sys_page_alloc envid va perm => ignoring (sysPageAlloc envid va perm)
  | sys_page_map srcenvid srcva dstenvid dstva perm =>
      ignoring (sysPageMap srcenvid srcva dstenvid dstva perm)
  | sys_page_unmap envid va => ignoring (sysPageUnmap envid va)
  | sys_ipc_try_send envid value srcva perm => ignoring (sysIpcTrySend envid value srcva perm)
  | sys_envreplace x args argc => ignoring (sysEnvreplace binary x args argc)

/-- When a call may be made: what is freed is live, and system calls are made by a live
environment. -/
def Meets (s : Kernel) : Call → Prop
  | env_alloc _ => True
  | env_free e => s.Live e
  | _ => ∃ cur, s.curenv = some cur ∧ s.Live cur

/-- The arguments of a new program are pushed below `UTOP`. -/
def PushesBelow (s : Kernel) : Call → Prop
  | sys_envreplace x _ _ => Program.ofInt x ≠ none → ∀ cur, s.curenv = some cur → StackBelow s cur
  | _ => True

end Call

/-! ### Runs -/

/-- The kernels of the runs that start after boot and whose calls meet the condition `ok`, as long
as no page has more references than its counter can count. -/
inductive Run (binary : Program → Binary) (avail : Finset Nat) (ok : Kernel → Call → Prop) :
    Kernel → Prop
  | boot {s s' : Kernel} (hboot : AfterMemInit avail s) (hinit : envInit s = .ok ((), s')) :
    Run binary avail ok s'
  | enter {s : Kernel} {e : Nat} {tf : Trapframe} (hrun : Run binary avail ok s)
    (hlive : s.Live e) : Run binary avail ok (entered s e tf)
  | call {s s' : Kernel} {c : Call} (hrun : Run binary avail ok s) (hmeets : c.Meets s)
    (hok : ok s c) (hcall : c.run binary s = .ok ((), s') ∨ c.run binary s = .error (.leave s'))
    (hfits : Fits avail s') : Run binary avail ok s'

theorem mayEnd_ignoring {α : Type} {m : Prog Kernel α} {Q : α → Kernel → Prop} {P L : Kernel → Prop}
    (h : m.MayEnd s Q L) (hQ : ∀ a s', Q a s' → P s') (hL : ∀ s', L s' → P s') :
  (ignoring m).MayEnd s (fun _ s' => P s') P
  := by
  rw [ignoring, mayEnd_bind]
  apply h.mono
  · exact fun a s' h' => mayEnd_pure () |>.mpr (hQ a s' h')
  · exact hL

/-- A call keeps the kernel well formed, if the arguments of a new program are pushed below
`UTOP`. -/
theorem call_wf (hlink : ∀ p, Linked (binary p)) (h : Wf avail ∅ s) (hfits : Fits avail s)
    {c : Call} (hmeets : c.Meets s) (hok : c.PushesBelow s) :
  (c.run binary).MayEnd s (fun _ s' => Wf avail ∅ s') (fun s' => Wf avail ∅ s')
  := by
  cases c with
  | env_alloc parentId =>
      obtain ⟨l, hl⟩ := h.mem
      obtain ⟨fl, hfl⟩ := h.env
      obtain ⟨-, heq⟩ | ⟨-, -, heq⟩ | ⟨e, p, l', fl', s1, -, -, heq, hc, hl', hfl'⟩ :=
        envAlloc_ok hl hfl parentId
      · rw [Call.run, ignoring, mayEnd_of_bind_eq heq, mayEnd_pure]
        exact h
      · rw [Call.run, ignoring, mayEnd_of_bind_eq heq, mayEnd_pure]
        exact h
      · rw [Call.run, ignoring, mayEnd_of_bind_eq heq, mayEnd_pure]
        exact h.created hc hl' hfl'
  | env_free e =>
      obtain ⟨s1, heq, -, hwf⟩ := envFree_ok h (e := ⟨e, hmeets.1⟩) hmeets hfits
      rw [Call.run, envFreeCurrent, mayEnd_of_bind_eq heq, mayEnd_bind, mayEnd_get, mayEnd_ite]
      constructor
      · intro _
        rw [mayEnd_modify]
        exact hwf.setCurenv none
      · intro _
        rw [mayEnd_pure]
        exact hwf
  | sys_exofork =>
      obtain ⟨cur, hcur, hlive⟩ := hmeets
      exact mayEnd_ignoring (sysExofork_done h hcur hlive) (fun _ _ h => h.1) (fun _ h => h.elim)
  | sys_env_destroy envid =>
      obtain ⟨cur, hcur, hlive⟩ := hmeets
      exact mayEnd_ignoring (sysEnvDestroy_done h hfits hcur hlive envid) (fun _ _ h => h.1)
        (fun _ h => h.1)
  | sys_page_alloc envid va perm =>
      obtain ⟨cur, hcur, hlive⟩ := hmeets
      exact mayEnd_ignoring (sysPageAlloc_done h hfits hcur hlive envid va perm)
        (fun _ _ h => h.1) (fun _ h => h.elim)
  | sys_page_map srcenvid srcva dstenvid dstva perm =>
      obtain ⟨cur, hcur, hlive⟩ := hmeets
      exact mayEnd_ignoring (sysPageMap_done h hfits hcur hlive srcenvid srcva dstenvid dstva perm)
        (fun _ _ h => h.1) (fun _ h => h.elim)
  | sys_page_unmap envid va =>
      obtain ⟨cur, hcur, hlive⟩ := hmeets
      exact mayEnd_ignoring (sysPageUnmap_done h hfits hcur hlive envid va)
        (fun _ _ h => h.1) (fun _ h => h.elim)
  | sys_ipc_try_send envid value srcva perm =>
      obtain ⟨cur, hcur, hlive⟩ := hmeets
      exact mayEnd_ignoring (sysIpcTrySend_done h hfits hcur hlive envid value srcva perm)
        (fun _ _ h => h.1) (fun _ h => h.elim)
  | sys_envreplace x args argc =>
      obtain ⟨cur, hcur, hlive⟩ := hmeets
      exact mayEnd_ignoring (sysEnvreplace_done hlink h hfits (e := ⟨cur, hlive.1⟩) hcur hlive
        (fun hx => hok hx cur hcur) args argc) (fun _ _ h => h.2.1) (fun _ h => h.elim)

/-- In every run that pushes arguments below `UTOP` only, the kernel stays well formed. -/
theorem Run.wf (hlink : ∀ p, Linked (binary p))
    (h : Run binary avail (fun s c => c.PushesBelow s) s) :
  Wf avail ∅ s ∧ Fits avail s
  := by
  induction h with
  | boot hboot hinit =>
      obtain ⟨hwf, hfits, -⟩ := wf_of_init hboot hinit
      exact ⟨hwf, hfits⟩
  | enter _ hlive ih => exact ⟨ih.1.entered hlive _, fits_entered ih.2 _ _⟩
  | call _ hmeets hok hcall hfits ih =>
      have hends := call_wf hlink ih.1 ih.2 hmeets hok
      obtain hret | hleave := hcall
      · exact ⟨hends.of_eq hret, hfits⟩
      · exact ⟨hends.of_leave hleave, hfits⟩

/-- In every run that pushes arguments below `UTOP` only, all pages are accounted for after each
call. -/
theorem run_pagesAccounted (hlink : ∀ p, Linked (binary p))
    (h : Run binary avail (fun s c => c.PushesBelow s) s) :
  Accounted avail s
  := by
  obtain ⟨hwf, hfits⟩ := h.wf hlink
  obtain ⟨l, hl⟩ := hwf.mem
  exact Ledger.accounted_of_memInv hl hfits

/-! ### The first environment replaces its program -/

/-- A run to the kernel in which the first environment makes its first call. -/
theorem run_first (binary : Program → Binary) (ok : Kernel → Call → Prop)
    (hok : ∀ s, ok s (.env_alloc 0)) (esp : Word) :
  ∃ s, FirstEnv 16 s ∧ s.curenv = some 0 ∧ (s.envs 0).envTf.tfEsp = esp
    ∧ Run binary (bootAvail 16) ok s
  := by
  obtain ⟨s0, s, hinit, heq, hfirst, -⟩ := envAlloc_first (n := 16) (by decide) (by decide)
  have hrun0 : Run binary (bootAvail 16) ok s0 :=
    .boot (bootKernel_afterMemInit (by decide)) hinit
  have hrun : Run binary (bootAvail 16) ok s := by
    apply hrun0.call (c := .env_alloc 0) trivial (hok s0) (Or.inl _) hfirst.fits
    rw [Call.run, ignoring, bind_of_eq heq]
    rfl
  have hesp : ((entered s 0 { (s.envs 0).envTf with tfEsp := esp }).envs 0).envTf.tfEsp = esp := by
    simp only [entered, Kernel.setEnv, Function.update_self]
  exact ⟨_, hfirst.entered _, rfl, hesp, hrun.enter hfirst.live⟩

/-- With a stack below `UTOP` the program is replaced. -/
theorem run_pagesAccounted_replaced :
  ∃ s s', Run (fun _ => smallImage) (bootAvail 16) (fun s c => c.PushesBelow s) s
    ∧ (Call.sys_envreplace 0 0 0).run (fun _ => smallImage) s = .ok ((), s')
    ∧ Accounted (bootAvail 16) s'
  := by
  obtain ⟨s, hfirst, hcur, hesp, hrun⟩ := run_first (fun _ => smallImage)
    (fun s c => c.PushesBelow s) (fun _ => trivial) (BitVec.ofNat 32 USTACKTOP)
  have hfree : HasFree (room smallImage) s := by
    rw [smallImage_room]
    obtain ⟨l, hl, hn⟩ := hfirst.free
    exact ⟨l, hl, by omega⟩
  have hargs : ∀ i < 8, (BitVec.ofNat 32 USTACKTOP - 8 + BitVec.ofNat 32 i : Word).toNat < UTOP
      ∧ (BitVec.ofNat 32 USTACKTOP - 8 + BitVec.ofNat 32 i : Word).toNat / PGSIZE
        = USTACKTOP / PGSIZE - 1 := by decide
  obtain ⟨_, s', heq, hwf, hfits, -⟩ := (envReplace_ok (E := False) (e := ⟨0, by decide⟩)
    hfirst.wf hfirst.fits smallImage_linked hcur hfirst.live (Or.inr hfree) (fun i hi => by
      rw [hesp]
      exact ⟨(hargs i hi).1, Or.inr (Or.inr (Or.inr (hargs i hi).2))⟩) .ENV_TYPE_USER 0 0).returns id
  have hcall : (Call.sys_envreplace 0 0 0).run (fun _ => smallImage) s = .ok ((), s') := by
    have hx : Program.ofInt 0 = some (.user_hello, .ENV_TYPE_USER) := rfl
    rw [Call.run, ignoring, sysEnvreplace, hx]
    simp only
    rw [bind_of_eq (bind_of_eq heq)]
    rfl
  have hpush : (Call.sys_envreplace 0 0 0).PushesBelow s := by
    intro _ cur hcur'
    rw [hcur] at hcur'
    obtain rfl := Option.some.inj hcur'
    rw [StackBelow, hesp]
    decide
  have hmeets : (Call.sys_envreplace 0 0 0).Meets s := ⟨0, hcur, hfirst.live⟩
  have hrun' := hrun.call hmeets hpush (Or.inl hcall) hfits
  exact ⟨s, s', hrun, hcall, run_pagesAccounted (fun _ => smallImage_linked) hrun'⟩

/-- What refers to a page after entries of the directory were cleared did so before. -/
theorem Overwritten.slotRef {n : Nat} {s1 : Kernel} (hs : FirstEnv n s) (hb : BeforePush n s s1)
    (h : Overwritten 0 0 s1 s') {x : Slot} {q : Nat} (hx : s'.slotRef x = some q) :
  s1.slotRef x = some q ∧ x ≠ .table ⟨0, by decide⟩ ⟨954, by decide⟩
  := by
  obtain ⟨l, hm⟩ := hb.wf.mem
  obtain ⟨eip, esp, type, hquiet⟩ := h.quiet
  have hdir0 : s1.pgdir 0 = some 71 := (hb.loaded.pgdir 0).trans hs.dir
  have hkern1 : s1.kernPgdir = 4 := hb.loaded.kernPgdir.trans hs.kernPgdir
  have hkern : s'.kernPgdir = 4 := by
    rw [hquiet]
    exact hkern1
  have hpgdir : ∀ e, s'.pgdir e = s1.pgdir e := by
    intro e
    rw [Kernel.pgdir, Kernel.pgdir, hquiet]
    by_cases he : e = 0
    · rw [he]
      simp only [Function.update_self, reloaded]
    · simp only [Function.update_of_ne he]
  -- entries of directories that are present were not written
  have hpde : ∀ (e : Fin NENV) (d : Fin NUPDE), refOf (s'.pde e d) ≠ none →
      s'.pde e d = s1.pde e d ∧ ¬ (e.val = 0 ∧ d.val = 954) := by
    intro e d hne
    have hd := d.isLt
    simp only [NUPDE] at hd
    rw [Kernel.pde, hpgdir] at hne ⊢
    rw [Kernel.pde]
    cases hpg : s1.pgdir e with
    | none =>
        rw [hpg] at hne
        simp only [refOf_zero] at hne
        exact (hne rfl).elim
    | some pg =>
        rw [hpg] at hne
        simp only at hne ⊢
        by_cases hpg71 : pg = 71
        · subst hpg71
          have h953 : d.val ≠ 953 := by
            intro hd953
            rw [hd953, h.argc, refOf_zero] at hne
            exact hne rfl
          have h954 : d.val ≠ 954 := by
            intro hd954
            rw [hd954, h.args, refOf_zero] at hne
            exact hne rfl
          exact ⟨h.other 71 d (by omega) (Or.inr (by omega)), fun hcases => h954 hcases.2⟩
        · refine ⟨h.other pg d (by omega) (Or.inl hpg71), ?_⟩
          rintro ⟨he, -⟩
          rw [he, hdir0] at hpg
          exact hpg71 (Option.some.inj hpg).symm
  cases x with
  | dir e => exact ⟨(hpgdir e).symm.trans hx, by simp⟩
  | table e d =>
      obtain ⟨heq, hne⟩ := hpde e d (by rw [show refOf (s'.pde e d) = some q from hx]; simp)
      rw [Kernel.slotRef, heq] at hx
      refine ⟨hx, ?_⟩
      rintro htable
      obtain ⟨rfl, rfl⟩ := Slot.table.inj htable
      exact hne ⟨rfl, rfl⟩
  | page e d t =>
      refine ⟨?_, by simp⟩
      have hx' : refOf (s'.pte e d t) = some q := hx
      have ht := t.isLt
      simp only [NPTENTRIES] at ht
      cases hpt : refOf (s'.pde e d) with
      | none =>
          rw [Kernel.pte, hpt, refOf_zero] at hx'
          cases hx'
      | some pt =>
          obtain ⟨heq, -⟩ := hpde e d (by rw [hpt]; simp)
          have hpt1 : s1.slotRef (.table e d) = some pt := by
            rw [Kernel.slotRef, ← heq]
            exact hpt
          have hne : pt ≠ 71 := by
            rintro rfl
            have howned := hm.balanced.owned (.dir ⟨0, by decide⟩) (.table e d) 71 trivial hdir0 hpt1
            cases howned
          have hpte : s'.pte e d t = s1.pte e d t := by
            rw [heq] at hpt
            rw [Kernel.pte, Kernel.pte, heq, hpt]
            exact h.other pt t ht (Or.inl hne)
          rw [hpte] at hx'
          exact hx'
  | kern d =>
      have hd := d.isLt
      simp only [NPDENTRIES] at hd
      refine ⟨?_, by simp⟩
      rw [Kernel.slotRef, hkern, h.other 4 d hd (Or.inl (by decide))] at hx
      rw [Kernel.slotRef, hkern1]
      exact hx

/-- Not in every run are all pages accounted for: with a stack pointer to the page directory the
kernel clears entries of it, and the page table of the stack is lost. -/
theorem not_run_pagesAccounted :
  ¬ ∀ (binary : Program → Binary) (avail : Finset Nat) (s : Kernel), (∀ p, Linked (binary p)) →
    Run binary avail (fun _ _ => True) s → Accounted avail s
  := by
  intro hall
  obtain ⟨s, hfirst, hcur, hesp, hrun⟩ := run_first (fun _ => smallImage)
    (fun _ _ => True) (fun _ => trivial) (dirVa + 8)
  have hfree : HasFree (room smallImage) s := by
    rw [smallImage_room]
    obtain ⟨l, hl, hn⟩ := hfirst.free
    exact ⟨l, hl, by omega⟩
  obtain ⟨s1, hb, hpush⟩ := envReplace_overwrites hfirst hcur hesp smallImage_linked hfree
  obtain ⟨s', heq, how⟩ := hpush .ENV_TYPE_USER 0 0
  obtain ⟨l1, hl1⟩ := hb.wf.mem
  have hslot : ∀ {x q}, s'.slotRef x = some q → s1.slotRef x = some q
      ∧ x ≠ .table ⟨0, by decide⟩ ⟨954, by decide⟩ := fun hx => how.slotRef hfirst hb hx
  have hfits : Fits (bootAvail 16) s' := by
    intro q hq
    apply Nat.le_trans _ (hb.fits q hq)
    apply Nat.add_le_add_right
    apply refCount.mono
    exact fun x _ hx => (hslot hx).1
  have hcall : (Call.sys_envreplace 0 0 0).run (fun _ => smallImage) s = .ok ((), s') := by
    have hx : Program.ofInt 0 = some (.user_hello, .ENV_TYPE_USER) := rfl
    rw [Call.run, ignoring, sysEnvreplace, hx]
    simp only
    rw [bind_of_eq (bind_of_eq heq)]
    rfl
  have hmeets : (Call.sys_envreplace 0 0 0).Meets s := ⟨0, hcur, hfirst.live⟩
  have hacc' := hall _ _ _ (fun _ => smallImage_linked)
    (hrun.call hmeets trivial (Or.inl hcall) hfits)
  -- the page table of the stack
  obtain ⟨T, hT⟩ : ∃ T, s1.slotRef (.table ⟨0, by decide⟩ ⟨954, by decide⟩) = some T := by
    apply Option.ne_none_iff_exists'.mp
    intro hnone
    have hstack := hb.stack.1
    have hnone' : refOf (s1.pde 0 (PDX (BitVec.ofNat 32 (USTACKTOP - PGSIZE)))) = none := hnone
    rw [Kernel.pteAt, Kernel.pte, hnone', refOf_zero] at hstack
    exact hstack rfl
  have hTavail := Kernel.mem_avail hl1 hT
  have hacc1 : Accounted (bootAvail 16) s1 := Ledger.accounted_of_memInv hl1 hb.fits
  have href1 := (hacc1.ppRef T hTavail).1
    ⟨.table ⟨0, by decide⟩ ⟨954, by decide⟩, trivial, hT⟩
  have hnot : ∀ x, s'.slotRef x ≠ some T := by
    intro x hx
    obtain ⟨hx1, hne⟩ := hslot hx
    exact hne (hl1.balanced.owned (.table ⟨0, by decide⟩ ⟨954, by decide⟩) x T trivial hT hx1)
  have href' := (hacc'.ppRef T hTavail).2 (by
    rintro ⟨x, -, hx⟩
    exact hnot x hx)
  have hzero : s'.mappings T = 0 := by
    rw [Kernel.mappings, refCount.eq_zero_iff]
    exact fun x _ => hnot x
  have hpages : s'.pages = s1.pages := by
    obtain ⟨eip, esp, type, hq⟩ := how.quiet
    rw [hq]
  simp only at href1 href'
  rw [hpages, hzero] at href'
  omega

end Root

end Jos
