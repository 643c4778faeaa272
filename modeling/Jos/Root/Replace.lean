import Jos.Root.Calls
import Jos.Root.Program

/-!
# Loading programs from system calls

What `sys_envreplace` and `sys_envcreate` of the kernel in `kern/` do to a well-formed kernel.
Neither hands control on: they return, or the kernel panics or faults.
-/

namespace Jos

namespace Root

open Bytes Prog

variable {E : Prop} {avail : Finset Nat} {e : Fin NENV} {s s' : Kernel} {α β : Type}

/-! ### What does not hand control on -/

/-- A procedure that returns, panics or faults. -/
def Stays (m : Prog Kernel α) : Prop :=
  Keeps (fun _ _ => True) m

theorem composes_any :
  Composes (fun _ _ : Kernel => True)
  := ⟨fun _ => trivial, fun _ _ => trivial⟩

theorem stays_bind {m : Prog Kernel α} {f : α → Prog Kernel β} (hm : Stays m)
    (hf : ∀ a, Stays (f a)) :
  Stays (m >>= f)
  := keeps_bind composes_any hm hf

theorem stays_pure (a : α) :
  Stays (pure a)
  := keeps_pure composes_any a

theorem stays_get :
  Stays get
  := keeps_get composes_any

theorem stays_modify (f : Kernel → Kernel) :
  Stays (modify f)
  := keeps_modify (fun _ => trivial)

theorem stays_orElse (o : Option α) {out : Prog Kernel α} (h : Stays out) :
  Stays (orElse o out)
  := keeps_orElse composes_any o h

theorem stays_ite {c : Prop} [Decidable c] {m m' : Prog Kernel α} (h : Stays m) (h' : Stays m') :
  Stays (if c then m else m')
  := keeps_ite h h'

theorem stays_forUp {body : Nat → Prog Kernel Unit} (h : ∀ i, Stays (body i)) (lo n : Nat) :
  Stays (forUp lo n body)
  := keeps_forUp composes_any h lo n

theorem stays_KADDR (pa : Word) :
  Stays (KADDR pa)
  := stays_bind stays_get (fun _ => stays_ite (keeps_panic _) (stays_pure _))

theorem stays_pa2page (pa : Word) :
  Stays (pa2page pa)
  := stays_bind stays_get (fun _ => stays_ite (keeps_panic _) (stays_pure _))

theorem stays_curenv :
  Stays curenv
  := stays_bind stays_get (fun _ => stays_orElse _ (keeps_fault _))

theorem stays_pageAlloc (flags : Nat) :
  Stays (pageAlloc flags)
  := by
  apply stays_bind stays_get
  intro s
  cases s.pageFreeList with
  | none => exact stays_pure none
  | some p =>
      apply stays_bind
      · exact fun _ => mayEnd_set.mpr trivial
      · intro _
        dsimp only
        apply stays_ite
        · apply stays_bind (stays_KADDR _)
          exact fun _ => stays_bind (stays_modify _) (fun _ => stays_pure _)
        · exact stays_pure _

theorem stays_pageDecref (pp : Nat) :
  Stays (pageDecref pp)
  := by
  apply stays_bind (stays_modify _)
  intro _
  apply stays_bind stays_get
  intro s
  apply stays_ite
  · exact stays_modify _
  · exact stays_pure _

theorem stays_pgdirWalk (pgdir : Nat) (va : Word) (create : Bool) :
  Stays (pgdirWalk pgdir va create)
  := by
  apply stays_bind stays_get
  intro s
  apply stays_ite (stays_pure _)
  apply stays_ite
  · apply stays_bind (stays_pageAlloc 1)
    intro temp
    cases temp with
    | none => exact stays_pure _
    | some temp =>
        apply stays_bind (stays_modify _)
        intro _
        apply stays_bind (stays_modify _)
        intro _
        exact stays_bind (stays_KADDR _) (fun _ => stays_pure _)
  · exact stays_bind (stays_KADDR _) (fun _ => stays_pure _)

theorem stays_pageRemove (pgdir : Nat) (va : Word) :
  Stays (pageRemove pgdir va)
  := by
  apply stays_bind
  · apply stays_bind (stays_pgdirWalk pgdir va false)
    intro pt
    cases pt with
    | none => exact stays_pure _
    | some pt =>
        apply stays_bind stays_get
        intro s
        apply stays_ite (stays_pure _)
        exact stays_bind (stays_pa2page _) (fun _ => stays_pure _)
  · intro r
    cases r with
    | none => exact stays_pure _
    | some r => exact stays_bind (stays_pageDecref _) (fun _ => stays_modify _)

theorem stays_pageInsert (pgdir pp : Nat) (va perm : Word) :
  Stays (pageInsert pgdir pp va perm)
  := by
  apply stays_bind (stays_pgdirWalk pgdir va true)
  intro pt
  cases pt with
  | none => exact stays_pure _
  | some pt =>
      apply stays_bind (stays_modify _)
      intro _
      apply stays_bind stays_get
      intro s
      have hrest : Stays (do
          modify (fun s => s.setEntry pt.1 pt.2 (page2pa pp ||| PTE_P ||| perm))
          modify (fun s => s.setEntry pgdir (PDX va) (s.entry pgdir (PDX va) ||| perm))
          pure 0 : Prog Kernel Word) :=
        stays_bind (stays_modify _) (fun _ => stays_bind (stays_modify _) (fun _ => stays_pure _))
      dsimp only
      apply stays_ite
      · exact stays_bind (stays_pageRemove pgdir va) (fun _ => hrest)
      · exact hrest

theorem stays_kernStore (pgdir : Nat) (va : Word) (b : Byte) :
  Stays (kernStore pgdir va b)
  := by
  apply stays_bind stays_get
  intro s
  apply stays_ite
  · exact stays_bind (stays_orElse _ (keeps_fault _)) (fun _ => stays_modify _)
  · exact keeps_fault _

theorem stays_kernStore32 (pgdir : Nat) (va w : Word) :
  Stays (kernStore32 pgdir va w)
  := by
  apply stays_bind (stays_kernStore _ _ _)
  intro _
  apply stays_bind (stays_kernStore _ _ _)
  intro _
  exact stays_bind (stays_kernStore _ _ _) (fun _ => stays_kernStore _ _ _)

theorem stays_regionAlloc (pgdir : Nat) (va len : Word) :
  Stays (regionAlloc pgdir va len)
  := by
  apply stays_forUp
  intro k
  apply stays_bind (stays_pageAlloc 0)
  intro p
  cases p with
  | none => exact keeps_panic _
  | some p => exact stays_bind (stays_pageInsert _ _ _ _) (fun _ => stays_pure _)

theorem stays_loadIcode (e : Nat) (binary : Binary) :
  Stays (loadIcode e binary)
  := by
  apply stays_bind stays_get
  intro s
  apply stays_bind (stays_orElse _ (keeps_panic _))
  intro pgdir
  apply stays_bind
  · apply stays_forUp
    intro i
    apply stays_ite (stays_pure _)
    apply stays_bind (stays_regionAlloc _ _ _)
    intro _
    apply stays_bind
    · exact stays_forUp (fun _ => stays_kernStore _ _ _) _ _
    · exact fun _ => stays_forUp (fun _ => stays_kernStore _ _ _) _ _
  · exact fun _ => stays_bind (stays_modify _) (fun _ => stays_regionAlloc _ _ _)

theorem stays_envReplace (binary : Binary) (type : EnvType) (argc argobt : Word) :
  Stays (envReplace binary type argc argobt)
  := by
  apply stays_bind stays_curenv
  intro cur
  apply stays_bind (stays_loadIcode cur binary)
  intro _
  apply stays_bind stays_get
  intro s
  apply stays_bind
  · apply stays_bind stays_curenv
    intro e
    exact stays_bind stays_get (fun _ => stays_orElse _ (keeps_fault _))
  · intro pgdir
    apply stays_bind (stays_kernStore32 _ _ _)
    intro _
    exact stays_bind (stays_kernStore32 _ _ _) (fun _ => stays_modify _)

/-! ### Replacing the program of the caller -/

/-- Whether the arguments that `sys_envreplace` pushes are below `UTOP`. -/
def StackBelow (s : Kernel) (e : Nat) : Prop :=
  8 ≤ (s.envs e).envTf.tfEsp.toNat ∧ (s.envs e).envTf.tfEsp.toNat ≤ UTOP

/-- The eight bytes below a stack pointer that is neither too low nor too high. -/
theorem argsVa_lt {esp : Word} (hlo : 8 ≤ esp.toNat) (hhi : esp.toNat ≤ UTOP) {i : Nat}
    (hi : i < 8) :
  (esp - 8 + BitVec.ofNat 32 i).toNat < UTOP
  := by
  have hutop : UTOP < 2 ^ 32 := by decide
  have hsub : (esp - 8).toNat = esp.toNat - 8 := BitVec.toNat_sub_of_le hlo
  rw [BitVec.toNat_add, BitVec.toNat_ofNat, hsub]
  omega

/-- What `sys_envreplace` has done when it returns. -/
inductive ReplaceDone (avail : Finset Nat) (e : Fin NENV) (x : Word) (s : Kernel) : Kernel → Prop
  | unknown (hx : Program.ofInt x = none) : ReplaceDone avail e x s s
  | loaded {s' : Kernel} (hx : Program.ofInt x ≠ none) (hl : Loaded avail e s s') :
    ReplaceDone avail e x s s'

/-- Replacing the program of the caller keeps the kernel well formed, if the stack of the caller
is below `UTOP`. -/
theorem sysEnvreplace_done {binary : Program → Binary} (hlink : ∀ p, Linked (binary p))
    (hs : Wf avail ∅ s) (hfits : Fits avail s) (hcur : s.curenv = some e.val) (hlive : s.Live e)
    {x : Word} (hesp : Program.ofInt x ≠ none → StackBelow s e) (args argc : Word) :
  (sysEnvreplace binary x args argc).MayEnd s (fun r s' => r = 1 ∧ Wf avail ∅ s' ∧ Fits avail s'
    ∧ ReplaceDone avail e x s s') (fun _ => False)
  := by
  rw [sysEnvreplace]
  cases hx : Program.ofInt x with
  | none =>
      simp only
      rw [mayEnd_pure]
      exact ⟨rfl, hs, hfits, .unknown hx⟩
  | some pt =>
      obtain ⟨program, type⟩ := pt
      have hx' : Program.ofInt x ≠ none := by simp [hx]
      obtain ⟨hlo, hhi⟩ := hesp hx'
      have hends := envReplace_ok (E := True) hs hfits (hlink program) hcur hlive (Or.inl trivial)
        (fun i hi => ⟨argsVa_lt hlo hhi hi, Or.inl trivial⟩) type argc args
      simp only
      rw [mayEnd_bind]
      apply (hends.mayEnd (stays_envReplace _ _ _ _) (L := fun _ => False)).mono
      · rintro _ s' ⟨hwf, hfits', hl⟩
        rw [mayEnd_pure]
        exact ⟨rfl, hwf, hfits', .loaded hx' hl⟩
      · exact fun _ h => h

/-! ### Creating an environment with a program -/

/-- A new environment adds one reference, to a page that had none. -/
theorem created_fits {p : Nat} {type : EnvType} {parentId : Word} (hs : Wf avail ∅ s)
    (hfits : Fits avail s) (hfree : s.OnFreeList p) (hc : Created e p type parentId s s') :
  Fits avail s'
  := by
  intro q hq
  have hslot := hc.slotRef
  rw [Nat.add_zero, Kernel.refs, hslot]
  by_cases hqp : q = p
  · have hone : ∀ y ∈ slots, Function.update s.slotRef (.dir e) (some p) y = some q →
        y = .dir e := by
      intro y _ hy
      by_contra hne
      rw [Function.update_of_ne hne, hqp] at hy
      exact hs.not_ref_of_free hfree y hy
    rw [refCount.eq_one (mem_slots (.dir e)) (by rw [Function.update_self, hqp]) hone]
    decide
  · have hle : refCount slots (Function.update s.slotRef (.dir e) (some p)) q ≤ s.refs q := by
      apply refCount.mono
      intro y _ hy
      by_cases hye : y = .dir e
      · rw [hye, Function.update_self] at hy
        exact (hqp (Option.some.inj hy).symm).elim
      · rw [Function.update_of_ne hye] at hy
        exact hy
    exact Nat.le_trans hle (hfits q hq)

/-- What `env_create` has done when it returns. -/
def CreateDone (avail : Finset Nat) (s s' : Kernel) : Prop :=
  ∃ (e : Fin NENV) (p : Nat) (s1 : Kernel), Wf avail ∅ s1 ∧ s.OnFreeList p
    ∧ Created e p .ENV_TYPE_USER 0 s s1 ∧ Loaded avail e s1 s'

/-- Creating an environment with a program keeps the kernel well formed. -/
theorem envCreate_done {binary : Binary} (hlink : Linked binary) (hs : Wf avail ∅ s)
    (hfits : Fits avail s) (type : EnvType) :
  (envCreate binary type).MayEnd s (fun _ s' => Wf avail ∅ s' ∧ Fits avail s'
    ∧ CreateDone avail s s') (fun _ => False)
  := by
  obtain ⟨l, hl⟩ := hs.mem
  obtain ⟨fl, hfl⟩ := hs.env
  rw [envCreate]
  obtain ⟨-, heq⟩ | ⟨-, -, heq⟩ | ⟨e, p, l', fl', s1, -, hlp, heq, hc, hl', hfl'⟩ :=
    envAlloc_ok hl hfl 0
  · rw [mayEnd_of_bind_eq heq]
    exact mayEnd_fault 0
  · rw [mayEnd_of_bind_eq heq]
    exact mayEnd_fault 0
  · have hfree : s.OnFreeList p := ⟨l, hl.chain, hlp ▸ List.mem_cons_self⟩
    have hwf1 := hs.created hc hl' hfl'
    have hmid : Midway True avail e p s1 (room binary) s1 :=
      ⟨hwf1, created_fits hs hfits hfree hc, Loaded.refl hwf1 e, hc.pgdir_self, Or.inl trivial,
        rfl⟩
    have hload := (loadIcode_ok (m := 0) hwf1 hlink hmid).mayEnd (stays_loadIcode e binary)
      (L := fun _ => False)
    rw [mayEnd_of_bind_eq heq, mayEnd_bind]
    apply hload.mono
    · rintro _ s2 ⟨hmid2, -⟩
      rw [mayEnd_modify]
      have hparent : (s2.envs e).envParentId = 0 := by
        obtain ⟨eip, esp, type, hq⟩ := hmid2.loaded.quiet
        rw [hq, hc.envs]
        simp only [Function.update_self]
        rfl
      have henv : { s2.envs e with envType := type, envParentId := 0 }
          = reloaded (s2.envs e) (s2.envs e).envTf.tfEip (s2.envs e).envTf.tfEsp type := by
        rw [reloaded, ← hparent]
      rw [henv]
      obtain ⟨hwf, hfits', hloaded, -, -⟩ := hmid2.reload (s2.envs e).envTf.tfEip
        (s2.envs e).envTf.tfEsp type
      exact ⟨hwf, hfits', e, p, s1, hwf1, hfree, hc, hloaded⟩
    · exact fun _ h => h

/-- The system call keeps the kernel well formed as well. -/
theorem sysEnvcreate_done {binary : Program → Binary} (hlink : ∀ p, Linked (binary p))
    (hs : Wf avail ∅ s) (hfits : Fits avail s) :
  (sysEnvcreate binary).MayEnd s (fun _ s' => Wf avail ∅ s' ∧ Fits avail s'
    ∧ CreateDone avail s s') (fun _ => False)
  := by
  rw [sysEnvcreate, mayEnd_bind]
  apply (envCreate_done (hlink .user_hello) hs hfits .ENV_TYPE_USER).mono
  · exact fun _ _ h => mayEnd_pure _ |>.mpr h
  · exact fun _ h => h

end Root

end Jos
