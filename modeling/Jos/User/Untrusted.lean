import Jos.User.Vm

/-!
# Images that are not trusted

Whatever a file holds, `spawn` and `copy_kernel` should read its program headers in the buffer only,
come to an end, and refuse it if its headers are not there.  They do if every header that is reached
lies in the buffer, and no page that is read has an address where it cannot be mapped.  Otherwise
there is a run in which nothing is refused, and in which they read elsewhere, give up, or accept
the file.
-/

namespace Jos

namespace User

open Bytes Prog View

variable {B : Stop World → Prop} {w w' w'' : World} {i q c : Nat}
  {fileid child guest buf path argv : Word} {f : File} {name : List Byte}
  {args : List (Word × List Byte)}

/-! ### The reads are checked -/

/-- What is said if a header is read outside of the buffer. -/
def outside : String := "read outside the buffer"

theorem within_checks (buf a : Word) (size k : Nat) :
  Checks outside (within buf a size k) (memory a size k)
  := by
  rw [within]
  split
  · exact checks_refl _
  · exact checks_panic

section Checks

variable {peek peek' : Reader} (h : ∀ a size k, Checks outside (peek a size k) (peek' a size k))
include h

theorem field16_checks (a : Word) (size k : Nat) :
  Checks outside (peek.field16 a size k) (peek'.field16 a size k)
  := by
  apply checks_bind (h _ _ _)
  intro _
  apply checks_bind (h _ _ _)
  exact fun _ => checks_refl _

theorem field32_checks (a : Word) (size k : Nat) :
  Checks outside (peek.field32 a size k) (peek'.field32 a size k)
  := by
  apply checks_bind (h _ _ _)
  intro _
  apply checks_bind (h _ _ _)
  intro _
  apply checks_bind (h _ _ _)
  intro _
  apply checks_bind (h _ _ _)
  exact fun _ => checks_refl _

theorem mapSegments_checks (child fd : Word) (n : Nat) (ph : Word) :
  Checks outside (mapSegments peek child fd n ph) (mapSegments peek' child fd n ph)
  := by
  induction n generalizing ph with
  | zero => exact checks_refl _
  | succ n ih =>
      apply checks_bind (field32_checks h _ _ _)
      intro type
      apply checks_ite (ih _)
      apply checks_bind (field32_checks h _ _ _)
      intro flags
      apply checks_bind (field32_checks h _ _ _)
      intro va
      apply checks_bind (field32_checks h _ _ _)
      intro memsz
      apply checks_bind (field32_checks h _ _ _)
      intro filesz
      apply checks_bind (field32_checks h _ _ _)
      intro offset
      apply checks_bind (checks_refl _)
      intro r
      cases r with
      | some f => exact checks_refl _
      | none => exact ih _

theorem readHeader_checks (fd buf : Word) :
  Checks outside (readHeader peek fd buf) (readHeader peek' fd buf)
  := by
  apply checks_bind (checks_refl _)
  intro n
  apply checks_ite (checks_refl _)
  apply checks_bind (field32_checks h _ _ _)
  exact fun _ => checks_refl _

theorem spawnChild_checks (elfBuf argv fd child : Word) :
  Checks outside (spawnChild peek elfBuf argv fd child) (spawnChild peek' elfBuf argv fd child)
  := by
  apply checks_bind (checks_refl _)
  intro w
  apply checks_bind (field32_checks h _ _ _)
  intro entry
  apply checks_bind (checks_refl _)
  intro r
  cases r with
  | error r => exact checks_refl _
  | ok initEsp =>
      apply checks_bind (field32_checks h _ _ _)
      intro phoff
      apply checks_bind (field16_checks h _ _ _)
      intro phnum
      apply checks_bind (mapSegments_checks h _ _ _ _)
      exact fun _ => checks_refl _

theorem spawn_checks (elfBuf prog argv : Word) :
  Checks outside (spawn peek elfBuf prog argv) (spawn peek' elfBuf prog argv)
  := by
  apply checks_bind (checks_refl _)
  intro r
  cases r with
  | error r => exact checks_refl _
  | ok fd =>
      apply checks_bind (readHeader_checks h _ _)
      intro header
      apply checks_ite (checks_refl _)
      apply checks_bind (checks_refl _)
      intro child
      exact checks_ite (checks_refl _) (spawnChild_checks h _ _ _ _)

theorem mapKernel_checks (guest fd eph : Word) (n : Nat) (ph r : Word) :
  Checks outside (mapKernel peek guest fd eph n ph r) (mapKernel peek' guest fd eph n ph r)
  := by
  induction n generalizing ph r with
  | zero => exact checks_refl _
  | succ n ih =>
      apply checks_ite _ (checks_refl _)
      apply checks_bind (field32_checks h _ _ _)
      intro type
      apply checks_ite _ (ih _ _)
      apply checks_bind (field32_checks h _ _ _)
      intro pa
      apply checks_bind (field32_checks h _ _ _)
      intro memsz
      apply checks_bind (field32_checks h _ _ _)
      intro filesz
      apply checks_bind (field32_checks h _ _ _)
      intro offset
      apply checks_bind (checks_refl _)
      intro r
      exact checks_ite (checks_refl _) (ih _ _)

theorem copyKernel_checks (data guest filname : Word) :
  Checks outside (copyKernel peek data guest filname) (copyKernel peek' data guest filname)
  := by
  apply checks_bind (checks_refl _)
  intro r
  cases r with
  | error r => exact checks_refl _
  | ok fd =>
      apply checks_bind (checks_refl _)
      intro t
      apply checks_ite (checks_refl _)
      apply checks_bind (field32_checks h _ _ _)
      intro magic
      apply checks_ite (checks_refl _)
      apply checks_bind (field32_checks h _ _ _)
      intro phoff
      apply checks_bind (field16_checks h _ _ _)
      intro phnum
      exact mapKernel_checks h _ _ _ _ _ _

end Checks

/-! ### The child and its stack -/

/-- The arguments can be read, and do not make `init_stack` store outside of its page. -/
structure World.HasArgs (w : World) (argv : Word) (args : List (Word × List Byte)) : Prop where
  shown : ((w.view w.self).on (fun a => PGNUM a ≠ PGNUM UTEMP)).Args argv args
  noWrap : NoWrap args

/-- What setting up the stack of the child does. -/
structure StackEnd (q : Nat) (child : Word) (args : List (Word × List Byte)) (w : World)
    (r : Except Word Word) (w' : World) : Prop where
  loads : Loads q child w w'
  refused : ∀ e, r = .error e → isError e = true
  fits : w.Willing → stackSize args ≤ PGSIZE → ∃ esp, r = .ok esp

/-- Nothing has been set up. -/
theorem StackEnd.refuse {e : Word} (hl : Loads q child w w') (he : isError e = true)
    (hno : w.Willing → ¬ stackSize args ≤ PGSIZE) :
  StackEnd q child args w (.error e) w'
  := by
  constructor
  case loads => exact hl
  case refused =>
    intro e' heq
    obtain rfl := Except.error.inj heq
    exact he
  case fits => exact fun hwill hfits => (hno hwill hfits).elim

/-- If the arguments fit, the stack of the child is set up, unless there is no memory. -/
theorem fillStack_ends (h : w.Loader i q fileid f child) (hargs : w.HasArgs argv args)
    (hfits : stackSize args ≤ PGSIZE) :
  (fillStack child argv args.length (UTEMP + PAGE - BitVec.ofNat 32 (stringSize args))
      (ROUNDDOWN (UTEMP + PAGE - BitVec.ofNat 32 (stringSize args)) 4
        - BitVec.ofNat 32 (4 * (args.length + 1)))).EndsOr B w (StackEnd q child args w)
  := by
  obtain ⟨b, hb⟩ : ∃ b, b + stackSize args = PGSIZE := ⟨_, Nat.sub_add_cancel hfits⟩
  have hsize : stringSize args + 4 * (args.length + 1) + 8 ≤ stackSize args := by
    rw [stackSize]
    omega
  have hstore : ROUNDDOWN (UTEMP + PAGE - BitVec.ofNat 32 (stringSize args)) 4
      - BitVec.ofNat 32 (4 * (args.length + 1)) = off UTEMP (b + 8) := by
    rw [argvStore_eq hfits, ← hb, Nat.add_sub_cancel]
  have h8 : off UTEMP (b + 8) - 8 = off UTEMP b := by
    rw [← off_off, off]
    exact BitVec.add_sub_cancel _ _
  have hkey : w.key 0 = w.self := by rw [World.key, if_pos rfl]
  obtain ⟨p, hp⟩ := h.wf.find_zero
  have halloc := sysPageAlloc_eq userPageAddr_UTEMP.1 proper_puw hp
  rw [hkey] at halloc
  rw [hstore, fillStack, endsOr_bind]
  by_cases hfate : isError (w.fate 0) = true
  · rw [if_pos hfate] at halloc
    have herr : isError (-E_NO_MEM) = true := by decide
    rw [endsOr_of_eq halloc, if_pos herr, endsOr_pure]
    apply StackEnd.refuse Served.asked.loads herr
    intro hwill
    rw [hwill 0] at hfate
    cases hfate
  · obtain ⟨w1, halloc1, htemp, hroom⟩ := allocTemp_eq h.wf (Bool.not_eq_true _ |>.mp hfate)
    rw [if_neg hfate, halloc1] at halloc
    obtain rfl : w1 = w.asked.alloc w.self UTEMP PTE_PUW := congrArg Prod.snd (Except.ok.inj halloc)
    have hl1 : Loads q child w (w.asked.alloc w.self UTEMP PTE_PUW) :=
      Loads.composes.trans Served.asked.loads (Loads.alloc (Or.inr ⟨rfl, rfl⟩))
    obtain ⟨c, hc⟩ := Option.isSome_iff_exists.mp h.there
    have hchild1 := (htemp.procs child h.ne_self).trans hc
    rw [endsOr_of_eq halloc1, if_neg (by decide), down_eq (by omega)]
    -- the page is filled, and given to the child
    obtain ⟨m, -, hsame, heq⟩ := fillPage_eq hroom hargs.shown hb
      (giveStack child (UTEMP2USTACK (off UTEMP (b + 8) - 8)))
    have hlm : Loads q child w ((w.asked.alloc w.self UTEMP PTE_PUW).setMem m) := by
      apply hl1.served (P := fun x => w.next * PGSIZE ≤ x)
      · apply Served.setMem
        exact fun x hx => hsame x (by omega)
      · exact fun x hx => Or.inr hx
    rw [giveStack_eq (htemp.wf.setMem m) hchild1 h.ne_zero (h.granted 0) htemp.entry] at heq
    rw [endsOr_of_eq heq]
    constructor
    case loads =>
      apply Loads.composes.trans hlm
      apply Loads.composes.trans Served.askedTable.loads
      apply Loads.composes.trans (Loads.setEntry (w := World.askedTable _) _ (Or.inl rfl))
      · apply Loads.setEntry _ (Or.inr ⟨rfl, rfl⟩)
        intro m' hm'
        cases hm'
      · intro m' hm'
        obtain rfl := Option.some.inj hm'
        exact Nat.lt_succ_self _
    case refused =>
      intro e he
      cases he
    case fits => exact fun _ _ => ⟨_, rfl⟩

theorem initStack_ends (h : w.Loader i q fileid f child) (hargs : w.HasArgs argv args) :
  (initStack child argv).EndsOr B w (StackEnd q child args w)
  := by
  have hargs' := within_on.argv hargs.shown
  by_cases hfits : stackSize args ≤ PGSIZE
  · apply (fillStack_ends h hargs hfits).congr
    rw [(initStack_eq hargs').2 (fun hno => hno.1 hfits)]
  · rw [endsOr_of_eq ((initStack_eq hargs').1 ⟨hfits, hargs.noWrap⟩)]
    exact .refuse (Loads.composes.refl w) (by decide) (fun _ => hfits)

/-! ### The environment that is created -/

/-- A new environment can be created. -/
def World.CanFork (w : World) : Prop :=
  isError (w.fate 0) = false ∧ w.fate 0 ≠ 0 ∧ w.procs (w.fate 0) = none

/-- A new environment. -/
def World.fork (w : World) (child : Word) (p : Proc) : World :=
  { w with procs := Function.update w.procs child (some p) }

section Fork

variable {p : Proc} (hnone : w.procs child = none) (hp : p.maps = fun _ => none)
include hnone

theorem fork_procs {e : Word} (he : (w.procs e).isSome) :
  (w.fork child p).procs e = w.procs e
  := by
  apply Function.update_of_ne
  rintro rfl
  rw [hnone] at he
  cases he

include hp

/-- A new environment maps nothing, and the others map what they did. -/
theorem fork_entry :
  (w.fork child p).entry = w.entry
  := by
  funext e va
  by_cases he : e = child
  · subst he
    have hself : (w.fork e p).procs e = some p := Function.update_self _ _ _
    rw [World.entry, World.entry, hself, hnone, Option.bind_some, hp, Option.bind_none]
  · have hother : (w.fork child p).procs e = w.procs e := Function.update_of_ne he _ _
    rw [World.entry, World.entry, hother]

/-- The file can be loaded into a new environment. -/
theorem fork_loading (hwf : w.Wf) (hop : w.Opened i q fileid f) (hgranted : w.Granted)
    (hheader : w.Header q buf (binary f.data)) (hzero : child ≠ 0) :
  (w.fork child p).Loading i q fileid f buf child
  := by
  have hentry := fork_entry hnone hp
  constructor
  case loader =>
    constructor
    case wf =>
      constructor
      case self_ne => exact hwf.self_ne
      case running => exact (congrArg Option.isSome (fork_procs hnone hwf.running)).trans hwf.running
      case fresh =>
        rw [hentry]
        exact hwf.fresh
    case opened => exact hop.congr (by rw [hentry]; rfl) rfl (fun _ _ _ _ => rfl)
    case granted => exact hgranted
    case ne_self =>
      intro hself
      have hself' : child = w.self := hself
      have hrun := hwf.running
      rw [← hself', hnone] at hrun
      cases hrun
    case ne_zero => exact hzero
    case there =>
      have hself : (w.fork child p).procs child = some p := Function.update_self _ _ _
      rw [hself]
      rfl
  case header =>
    constructor
    case away => exact hheader.away
    case shown =>
      intro k hk
      obtain ⟨x, hx, hrest⟩ := hheader.shown k hk
      use x
      refine ⟨?_, hrest⟩
      rw [World.translate, hentry]
      exact hx

end Fork

/-- An environment is created for the file that is open, or that is refused. -/
theorem sysExofork_ends (hwf : w.Wf) (hop : w.Opened i q fileid f) (hgranted : w.Granted)
    (hheader : w.Header q buf (binary f.data)) :
  sysExofork.EndsOr B w (fun r w' =>
    (isError r = true ∧ ¬ w.CanFork) ∨
    (isError r = false ∧ r = w.fate 0 ∧ w'.Loading i q fileid f buf r ∧ (w.Willing → w'.Willing)
      ∧ w'.view w'.self = w.view w.self))
  := by
  rw [sysExofork, endsOr_bind, request, endsOr_bind, endsOr_get, endsOr_bind, endsOr_set, endsOr_pure,
    endsOr_bind, endsOr_get, endsOr_ite]
  constructor
  · intro herr
    rw [endsOr_pure]
    left
    use herr
    intro hcan
    rw [hcan.1] at herr
    cases herr
  · intro hok
    rw [endsOr_ite]
    constructor
    · intro hused
      rw [endsOr_pure]
      left
      use by decide
      rintro ⟨-, hne, hnone⟩
      have hused' : w.fate 0 = 0 ∨ (w.procs (w.fate 0)).isSome := hused
      rw [hnone] at hused'
      obtain hzero | hsome := hused'
      · exact hne hzero
      · cases hsome
    · intro hnew
      obtain ⟨hzero, hnone⟩ := not_or.mp hnew
      simp only
      rw [Bool.not_eq_true] at hok hnone
      rw [endsOr_bind, endsOr_set, endsOr_pure]
      have hnone' : w.asked.procs (w.fate 0) = none := Option.not_isSome_iff_eq_none.mp (by
        rw [Bool.not_eq_true]
        exact hnone)
      right
      use hok
      change _ ∧ (World.fork w.asked (w.fate 0) _).Loading _ _ _ _ _ _ ∧ _
        ∧ (World.fork w.asked (w.fate 0) _).view w.self = _
      refine ⟨rfl, ?_, fun hwill n => hwill _, ?_⟩
      · apply fork_loading hnone' rfl hwf.asked _ hgranted _ hzero
        · exact hop.congr rfl rfl (fun _ _ _ _ => rfl)
        · exact ⟨hheader.away, hheader.shown⟩
      · funext va
        rw [World.view, World.view, World.translate, World.translate, fork_entry hnone' rfl]
        rfl

/-! ### Arguments that lie beside the buffer -/

/-- What the program reads outside of the page at `UTEMP` and of the buffer. -/
def World.beside (w : World) (buf : Word) : View :=
  (w.view w.self).on (fun a => PGNUM a ≠ PGNUM UTEMP
    ∧ ∀ k < HEADER, w.translate w.self PTE_U (off buf k) ≠ w.translate w.self PTE_U a)

/-- The arguments lie beside the buffer, and do not make `init_stack` store outside of its page. -/
structure World.HasArgsBeside (w : World) (buf argv : Word) (args : List (Word × List Byte)) : Prop where
  shown : (w.beside buf).Args argv args
  noWrap : NoWrap args

/-- Opening the file and reading its headers leaves the arguments alone. -/
theorem HeaderRead.within {t : Word} (h : HeaderRead f i buf w t w') (hwf : w.Wf)
    (hnone : w.entry w.self (fdAddr i) = none) :
  (w.beside buf).Within ((w'.view w'.self).on (fun a => PGNUM a ≠ PGNUM UTEMP))
  := by
  intro a b hab
  rw [World.beside, View.on] at hab
  split at hab
  case isFalse => cases hab
  case isTrue hout =>
    obtain ⟨x, hx, hb⟩ := view_eq_some.mp hab
    obtain ⟨m, hm, hperm, hpa⟩ := translate_eq_some.mp hx
    have hlt : x < w.next * PGSIZE := by
      have hoff := PGOFF_lt a
      have hnext := Nat.mul_le_mul_right PGSIZE (Nat.succ_le_of_lt (hwf.fresh _ _ _ hm))
      rw [Nat.succ_mul] at hnext
      omega
    have hentry : w'.entry w'.self a = some m := by
      rw [World.entry, h.self, h.procs, ← hm]
      apply entry_setEntry_of_ne
      rintro - hnum
      rw [World.entry, hnum] at hm
      rw [World.entry, hm] at hnone
      cases hnone
    rw [View.on, if_pos hout.1, view_eq_some]
    refine ⟨x, translate_eq_some.mpr ⟨m, hentry, hperm, hpa⟩, ?_⟩
    rw [h.rest x hlt, hb]
    intro k hk
    rw [← hx]
    exact hout.2 k hk

/-! ### Spawning -/

/-- All segments can be mapped. -/
def AllFit (f : File) (seg : Nat → Segment) : Prop :=
  ∀ j < (binary f.data).ePhnum, (binary f.data).pType j = ELF_PROG_LOAD → (seg j).Fits f

/-- Then all headers are reached, and lie in the buffer if those that are reached do. -/
theorem HeadersOr.tableInside {msg : String} {seg : Nat → Segment} (h : HeadersOr B msg f seg)
    (hfit : AllFit f seg) :
  TableInside (binary f.data)
  := fun j hj => h.inBuffer j hj (fun k hk => hfit k (by omega))

/-- What the rest of `spawn` does once there is a child: it refuses the image, or all its segments
could be mapped. -/
structure ChildEnd (f : File) (r : Except Failure Word) : Prop where
  accepted : ∀ c, r = .ok c → AllFit f (programSegment (binary f.data))
  refused : ∀ x, r = .error x → isError x.code = true

theorem ChildEnd.refuse {x : Failure} (hx : isError x.code = true) :
  ChildEnd f (.error x)
  := by
  constructor
  case accepted =>
    intro c hc
    cases hc
  case refused =>
    intro x' hx'
    obtain rfl := Except.error.inj hx'
    exact hx

/-- The permission to run is given to a child that is there. -/
theorem sysEnvSetStatus_eq {p : Proc} (hzero : child ≠ 0) (hp : w.procs child = some p) :
  ∃ w', sysEnvSetStatus child ENV_RUNNABLE w = .ok (0, w')
  := by
  have hstatus : statusOfWord ENV_RUNNABLE = some .ENV_RUNNABLE := by decide
  have hkey : w.key child = child := by rw [World.key, if_neg hzero]
  rw [sysEnvSetStatus, hstatus]
  simp only
  rw [get_bind, World.find, hkey, hp]
  exact ⟨_, rfl⟩

/-- The registers of a child that is there are set, unless its entry point is a bad address. -/
theorem sysEnvSetTrapframe_cases {p : Proc} (hzero : child ≠ 0) (hp : w.procs child = some p)
    (tf : Trapframe) :
  ∃ r w', sysEnvSetTrapframe child tf w = .ok (r, w') ∧ (w'.procs child).isSome
  := by
  have hkey : w.key child = child := by rw [World.key, if_neg hzero]
  rw [sysEnvSetTrapframe, get_bind, World.find, hkey, hp]
  simp only
  split
  case isTrue => exact ⟨_, w, rfl, by rw [hp]; rfl⟩
  case isFalse =>
    refine ⟨_, _, rfl, ?_⟩
    change (Function.update w.procs child _ child).isSome
    rw [Function.update_self]
    rfl

/-- Without the child the file is still open. -/
theorem World.Loader.without (h : w.Loader i q fileid f child)
    (hw' : w' = { w with procs := Function.update w.procs child none }) :
  w'.Opened i q fileid f ∧ (w'.procs w'.self).isSome
  := by
  have hself : w'.self = w.self := by rw [hw']
  have hprocs : w'.procs w.self = w.procs w.self := by
    rw [hw']
    exact Function.update_of_ne h.ne_self.symm _ _
  constructor
  · apply h.opened.congr
    · rw [World.entry, World.entry, hself, hprocs]
    · rw [hw']
    · intro x _ _ _
      rw [hw']
  · rw [hself, hprocs]
    exact h.wf.running

theorem spawnChild_ends {peek : Reader} (h : w.Loading i q fileid f buf child)
    (hargs : w.HasArgs argv args)
    (hpeek : ∀ {w'}, w'.Header q buf (binary f.data) → peek.Shows w' buf (binary f.data))
    (hsafe : HeadersOr B "spawn: sys_page_map data: %e" f (programSegment (binary f.data)))
    (htf : AllFit f (programSegment (binary f.data)) → B (.panic "sys_env_set_trapframe: %e")) :
  (spawnChild peek buf argv (BitVec.ofNat 32 i) child).EndsOr B w (fun r _ => ChildEnd f r)
  := by
  have hentry : peek.elf32 buf 24 w = .ok ((binary f.data).eEntry, w) :=
    (hpeek h.header).elf32_eq (by decide)
  rw [spawnChild, endsOr_bind, endsOr_get, endsOr_bind, endsOr_of_eq hentry, endsOr_bind]
  apply (initStack_ends h.loader hargs).mono
  intro r w1 h1
  have hl1 := h.loads h1.loads
  cases r with
  | error e =>
      simp only
      rw [endsOr_pure]
      exact .refuse (h1.refused e rfl)
  | ok initEsp =>
      have hread := hpeek hl1.header
      have hphoff : peek.elf32 buf 28 w1 = .ok ((binary f.data).ePhoff, w1) :=
        hread.elf32_eq (by decide)
      simp only
      rw [endsOr_bind, endsOr_of_eq hphoff, endsOr_bind, endsOr_of_eq hread.ephnum_eq, endsOr_bind, phoff_eq]
      apply (mapSegments_ends (n := (binary f.data).ePhnum) hl1.loader
        (fun w' hl => hpeek (hl1.loads hl).header) (reached_zero _ _) (Nat.zero_add _) hsafe).mono
      intro r w2 h2
      have hl2 := hl1.loads h2.loads
      cases r with
      | some x =>
          simp only
          rw [endsOr_bind,
            endsOr_of_eq (sysEnvDestroy_eq hl2.loader.there hl2.loader.ne_zero hl2.loader.ne_self),
            endsOr_bind]
          obtain ⟨hopened, hrun⟩ := hl2.loader.without rfl
          apply (close_ends hopened hrun (hl2.loader.granted 0)).mono
          intro _ w3 _
          rw [endsOr_pure]
          exact .refuse (h2.refused x rfl)
      | none =>
          simp only
          rw [endsOr_bind]
          apply hl2.loader.close_ends.mono
          rintro _ w3 ⟨w4, h4, rfl⟩
          have hthere : ((w4.setEntry w2.self (fdAddr i) none).procs child).isSome := by
            rw [isSome_setEntry, h4.procs]
            exact hl2.loader.there
          obtain ⟨p, hp⟩ := Option.isSome_iff_exists.mp hthere
          obtain ⟨r, w5, heq, hthere5⟩ := sysEnvSetTrapframe_cases hl2.loader.ne_zero hp
            { { ((w.procs child).getD {}).tf with tfEip := (binary f.data).eEntry } with
              tfEsp := initEsp }
          rw [endsOr_bind, endsOr_of_eq heq, endsOr_ite]
          have hfit : AllFit f (programSegment (binary f.data)) :=
            fun j hj => (h2.mapped rfl).fits j (Nat.zero_le j) hj
          refine ⟨fun _ => endsOr_panic _ |>.mpr (htf hfit), fun _ => ?_⟩
          obtain ⟨p5, hp5⟩ := Option.isSome_iff_exists.mp hthere5
          obtain ⟨w6, heq6⟩ := sysEnvSetStatus_eq hl2.loader.ne_zero hp5
          rw [endsOr_bind, endsOr_of_eq heq6, if_neg (by decide), endsOr_pure]
          constructor
          case accepted => exact fun _ _ => hfit
          case refused =>
            intro x hx
            cases hx

/-- Whatever is asked for, an environment may be created. -/
def World.Forks (w : World) : Prop :=
  ∀ n, w.fate n ≠ 0 ∧ w.procs (w.fate n) = none

/-- Nothing is refused before `spawn` looks at the segments. -/
structure World.Spawns (w : World) (name : List Byte) (args : List (Word × List Byte)) (f : File) :
    Prop where
  willing : w.Willing
  canOpen : w.CanOpen name
  forks : w.Forks
  fits : stackSize args ≤ PGSIZE
  image : IsImage f.data

theorem World.Spawns.copies (h : w.Spawns name args f) :
  w.Copies name f
  := ⟨h.willing, h.canOpen, h.image⟩

theorem HeaderRead.canFork {t : Word} (h : HeaderRead f i buf w t w') (hwill : w.Willing)
    (hforks : w.Forks) :
  w'.CanFork
  := by
  obtain ⟨k, hk⟩ := h.fate
  rw [World.CanFork, hk]
  obtain ⟨hzero, hnone⟩ := hforks (0 + k)
  refine ⟨hwill _, hzero, ?_⟩
  have hsome : (w'.procs (w.fate (0 + k))).isSome = (w.procs (w.fate (0 + k))).isSome := by
    rw [h.procs]
    exact isSome_setEntry _ _
  rw [hnone] at hsome
  exact Option.not_isSome_iff_eq_none.mp (by rw [hsome]; exact Bool.false_ne_true)

/-- `spawn` refuses the file, or goes on with a child. -/
theorem spawn_reaches {peek : Reader} {Q : Except Failure Word → World → Prop}
    (h : w.Ready buf path name) (hf : w.disk name = f) (hargs : w.HasArgsBeside buf argv args)
    (hpeek : ∀ {w'}, w'.Header w.next buf (binary f.data) → peek.Shows w' buf (binary f.data))
    (hrefuse : ∀ x w', isError x.code = true → ¬ w.Spawns name args f →
      (w.Copies name f → x.place = .sysExofork) → Q (.error x) w')
    (hchild : IsImage f.data → ∀ i child w', w'.Loading i w.next (w.fate 0) f buf child →
      w'.HasArgs argv args → (w.Willing → w'.Willing) → (∃ n, child = w.fate n) →
      (spawnChild peek buf argv (BitVec.ofNat 32 i) child).EndsOr B w' Q) :
  (spawn peek buf path argv).EndsOr B w Q
  := by
  rw [spawn, endsOr_bind]
  obtain ⟨r, w1, heq, herr, hcannot, -⟩ | ⟨i, hi, hnone, -, -, -, heq⟩ :=
    openFile_cases h.named h.granted
  · rw [endsOr_of_eq heq]
    simp only
    rw [endsOr_pure]
    exact hrefuse _ _ herr (fun hgo => hcannot hgo.canOpen) (fun hgo => (hcannot hgo.canOpen).elim)
  · rw [endsOr_of_eq heq, hf]
    simp only
    rw [endsOr_bind, readHeader, endsOr_bind]
    apply (readHeader_ends h hi hnone f).mono
    intro t w1 h1
    have hclose : ¬ w.Copies name f → (close (BitVec.ofNat 32 i) >>= fun _ =>
        (pure (.error ⟨.header, -E_NOT_EXEC⟩) : Prog World (Except Failure Word))).EndsOr B w1 Q := by
      intro hno
      rw [endsOr_bind]
      apply (close_ends h1.opened h1.wf.running (h1.granted 0)).mono
      intro _ w2 _
      rw [endsOr_pure]
      exact hrefuse _ _ (by decide : isError (-E_NOT_EXEC) = true) (fun hgo => hno hgo.copies)
        (fun hgo => (hno hgo).elim)
    rw [endsOr_ite]
    constructor
    · intro hshort
      rw [endsOr_pure, if_pos (by decide)]
      exact hclose (fun hgo => hshort (h1.reads hgo.willing hgo.image.1))
    · intro hlong
      obtain ⟨hlen, hheader⟩ := h1.header (not_not.mp hlong)
      have hmagic : peek.elf32 buf 0 w1 = .ok ((binary f.data).eMagic, w1) :=
        (hpeek hheader).elf32_eq (by decide)
      rw [endsOr_bind, endsOr_of_eq hmagic, endsOr_pure, endsOr_ite]
      constructor
      · exact fun hno => hclose (fun hgo => hno (decide_eq_true hgo.image.2))
      · intro hyes
        obtain ⟨k, hk⟩ := h1.fate
        rw [endsOr_bind]
        apply (sysExofork_ends h1.wf h1.opened h1.granted hheader).mono
        rintro child w2 (⟨herr, hcannot⟩ | ⟨hok, hfate, hloading, hwill, hview⟩)
        · rw [if_pos herr, endsOr_pure]
          exact hrefuse _ _ herr (fun hgo => hcannot (h1.canFork hgo.willing hgo.forks)) (fun _ => rfl)
        · rw [if_neg (by rw [hok]; exact Bool.false_ne_true)]
          have hargs2 : w2.HasArgs argv args := by
            constructor
            case shown =>
              rw [hview]
              exact (h1.within h.wf hnone).argv hargs.shown
            case noWrap => exact hargs.noWrap
          exact hchild ⟨hlen, of_decide_eq_true (not_not.mp hyes)⟩ i child w2 hloading hargs2
            (fun hw => hwill (h1.willing hw)) ⟨_, hfate.trans (congrFun hk 0)⟩

/-! ### Images that are not safe -/

/-- The header `v` is reached, and lies outside of the buffer, or has a page that is read and cannot be
mapped where it belongs. -/
def Violates (f : File) (seg : Nat → Segment) (v : Nat) : Prop :=
  v < (binary f.data).ePhnum ∧ Reached f seg v ∧ (¬ InBuffer (binary f.data) v
    ∨ ((binary f.data).pType v = ELF_PROG_LOAD ∧ ∃ bad, (seg v).Bad f bad))

theorem exists_violates {seg : Nat → Segment} (h : ¬ HeadersSafe f seg) :
  ∃ v, Violates f seg v
  := by
  by_contra hno
  apply h
  intro v hv hreach
  constructor
  · by_contra hout
    exact hno ⟨v, hv, hreach, Or.inl hout⟩
  · intro hload bad hbad
    exact hno ⟨v, hv, hreach, Or.inr ⟨hload, bad, hbad⟩⟩

/-- The addresses of the headers up to the one behind the last in the buffer do not go round. -/
theorem phdr_succ_lt {b : Binary} (hin : InBuffer b c) :
  b.phdr (c + 1) < 2 ^ 32
  := by
  rw [InBuffer] at hin
  rw [phdr_succ]
  simp only [HEADER] at hin
  omega

/-- If nothing is refused, the violation is reached, and `spawn` gives up or reads elsewhere. -/
theorem mapSegments_violates {n v : Nat} (h : w.Loading i q fileid f buf child) (hwill : w.Willing)
    (hv : Violates f (programSegment (binary f.data)) v) (hcv : c ≤ v)
    (hn : c + n = (binary f.data).ePhnum) (hlt : (binary f.data).phdr c < 2 ^ 32)
    (hout : B (.panic outside)) (hpanic : B (.panic "spawn: sys_page_map data: %e")) :
  (mapSegments (within buf) child (BitVec.ofNat 32 i) n
    (off buf ((binary f.data).phdr c))).EndsOr B w (fun _ _ => False)
  := by
  obtain ⟨hvlt, hreach, hbad⟩ := hv
  induction n generalizing w c with
  | zero => omega
  | succ n ih =>
      by_cases hin : InBuffer (binary f.data) c
      · have hread := h.header.within_shows
        have hfield : ∀ {k}, k + 4 ≤ 32 → (within buf).ph32 (off buf ((binary f.data).phdr c)) k w
            = .ok (read32 (binary f.data) ((binary f.data).phdr c + k), w) :=
          fun hk => hread.ph32_eq hin hk
        have htype : (within buf).ph32 (off buf ((binary f.data).phdr c)) 0 w
            = .ok ((binary f.data).pType c, w) := hfield (by decide)
        rw [mapSegments, endsOr_bind, endsOr_of_eq htype, endsOr_ite, off_phdr_succ]
        have hlater : (¬ ((binary f.data).pType c = ELF_PROG_LOAD
            ∧ ∃ bad, (programSegment (binary f.data) c).Bad f bad)) → c + 1 ≤ v := by
          intro hgood
          obtain rfl | hlt' := Nat.eq_or_lt_of_le hcv
          · exact (hbad.elim (fun hno => hno hin) hgood).elim
          · exact hlt'
        constructor
        · intro hskip
          exact ih h hwill (hlater (fun hload => hskip hload.1)) (by omega) (phdr_succ_lt hin)
        · intro hload
          rw [endsOr_bind, endsOr_of_eq (hfield (by decide)), endsOr_bind,
            endsOr_of_eq (hfield (by decide)), endsOr_bind, endsOr_of_eq (hfield (by decide)),
            endsOr_bind, endsOr_of_eq (hfield (by decide)), endsOr_bind,
            endsOr_of_eq (hfield (by decide)), endsOr_bind]
          by_cases hex : ∃ bad, (programSegment (binary f.data) c).Bad f bad
          · obtain ⟨bad, hbad'⟩ := hex
            have hpanics := segment_panics "spawn: sys_page_map data: %e" h.loader
              (proper_segmentPerm ((binary f.data).pFlags c)) hwill hbad'
            exact endsOr_of_error hpanics |>.mpr hpanic
          · have hcv' : c + 1 ≤ v := hlater (fun hload' => hex hload'.2)
            apply (segment_ends (s := programSegment (binary f.data) c) _ h.loader
              (proper_segmentPerm ((binary f.data).pFlags c)) (fun bad hbad' => (hex ⟨bad, hbad'⟩).elim)).mono
            intro r w1 h1
            obtain rfl := h1.maps hwill (hreach c hcv' (not_not.mp hload))
            exact ih (h.loads h1.loads) (h1.loads.willing hwill) hcv' (by omega) (phdr_succ_lt hin)
      · have hstop : (within buf).ph32 (off buf ((binary f.data).phdr c)) 0 w = .error (.panic outside) :=
          ph32_outside hin hlt
        have hrun : mapSegments (within buf) child (BitVec.ofNat 32 i) (n + 1)
            (off buf ((binary f.data).phdr c)) w = .error (.panic outside) := by
          rw [mapSegments, bind_of_error hstop]
        exact endsOr_of_error hrun |>.mpr hout

theorem spawnChild_violates {v : Nat} (h : w.Loading i q fileid f buf child) (hargs : w.HasArgs argv args)
    (hwill : w.Willing) (hfits : stackSize args ≤ PGSIZE)
    (hv : Violates f (programSegment (binary f.data)) v)
    (hout : B (.panic outside)) (hpanic : B (.panic "spawn: sys_page_map data: %e")) :
  (spawnChild (within buf) buf argv (BitVec.ofNat 32 i) child).EndsOr B w (fun _ _ => False)
  := by
  have hentry : (within buf).elf32 buf 24 w = .ok ((binary f.data).eEntry, w) :=
    h.header.within_shows.elf32_eq (by decide)
  rw [spawnChild, endsOr_bind, endsOr_get, endsOr_bind, endsOr_of_eq hentry, endsOr_bind]
  apply (initStack_ends h.loader hargs).mono
  intro r w1 h1
  have hl1 := h.loads h1.loads
  obtain ⟨initEsp, rfl⟩ := h1.fits hwill hfits
  have hread := hl1.header.within_shows
  have hphoff : (within buf).elf32 buf 28 w1 = .ok ((binary f.data).ePhoff, w1) :=
    hread.elf32_eq (by decide)
  simp only
  rw [endsOr_bind, endsOr_of_eq hphoff, endsOr_bind, endsOr_of_eq hread.ephnum_eq, endsOr_bind, phoff_eq]
  apply (mapSegments_violates (n := (binary f.data).ePhnum) hl1 (h1.loads.willing hwill) hv
    (Nat.zero_le v) (Nat.zero_add _) (BitVec.isLt _) hout hpanic).mono
  exact fun _ _ hno => hno.elim

/-! ### Which images are safe -/

/-- Whatever the rest of the system answers, `spawn` reads the headers of the file in the buffer only,
comes to an end, and refuses the file if its headers are not in the buffer. A bad entry point is an
assertion that fails once all is loaded. -/
def SpawnSafe (f : File) : Prop :=
  ∀ (w : World) (buf path argv : Word) (name : List Byte) (args : List (Word × List Byte)),
    w.Ready buf path name → w.disk name = f → w.HasArgsBeside buf argv args →
      spawn (within buf) buf path argv w = spawn memory buf path argv w
        ∧ (spawn memory buf path argv).EndsOr
          (fun stop => TableInside (binary f.data) ∧ stop = .panic "sys_env_set_trapframe: %e") w
          (fun r _ => ¬ TableInside (binary f.data) → isError (returned r) = true)

/-- A run that does not stop at a read outside of the buffer is one without the check. -/
theorem spawn_within (hB : ¬ B (.panic outside)) {Q : Except Failure Word → World → Prop}
    (h : (spawn (within buf) buf path argv).EndsOr B w Q) :
  spawn (within buf) buf path argv w = spawn memory buf path argv w
    ∧ (spawn memory buf path argv).EndsOr B w Q
  := by
  have heq : spawn (within buf) buf path argv w = spawn memory buf path argv w :=
    (spawn_checks (within_checks buf) buf path argv).run_eq (fun hstop => hB (h.of_error hstop))
  exact ⟨heq, h.congr heq⟩

theorem oneFile_hasArgs (f : File) (a : Word) :
  (oneFile f a).HasArgsBeside 0x1800 0x1010 []
  := by
  have hbuf : ∀ k < HEADER, (oneFile f a).translate 1 PTE_U (off 0x1800 k) = some (0x800 + k) := by
    intro k hk
    have hstart : off 0x1000 0x800 = 0x1800 := by decide
    simp only [HEADER] at hk
    rw [← hstart, off_off]
    exact oneFile_translate f a (by decide) (by simp only [PGSIZE]; omega)
  constructor
  case shown =>
    change View.word _ _ = some 0
    have hword : ((oneFile f a).beside 0x1800).word 0x1010 = some (read32 (oneFile f a).mem 0x10) := by
      apply word_of_bytes
      intro j hj
      have haddr : off 0x1010 j = off 0x1000 (0x10 + j) := by
        have hstart : off 0x1000 0x10 = 0x1010 := by decide
        rw [← hstart, off_off]
      have hpage : 0x10 + j < PGSIZE := by
        simp only [PGSIZE]
        omega
      have htrans : (oneFile f a).translate 1 PTE_U (off 0x1000 (0x10 + j)) = some (0x10 + j) :=
        oneFile_translate f a (by decide) hpage
      rw [haddr, World.beside, View.on, if_pos]
      · rw [World.view]
        change ((oneFile f a).translate 1 _ _).map _ = _
        rw [htrans]
        rfl
      · constructor
        · rw [(off_page (by decide) hpage).1]
          decide
        · intro k hk
          change (oneFile f a).translate 1 _ _ ≠ (oneFile f a).translate 1 _ _
          rw [hbuf k hk, htrans]
          intro heq
          have hNat := Option.some.inj heq
          omega
    rw [hword, read32_eq_zero]
    intro x hx _
    change (if x = 0 then (0x61 : Byte) else 0) = 0
    rw [if_neg (by omega)]
  case noWrap =>
    left
    decide

/-- `spawn` is safe for a file exactly if the headers it reaches are. -/
theorem spawnSafe_iff (f : File) :
  SpawnSafe f ↔ (IsImage f.data → HeadersSafe f (programSegment (binary f.data)))
  := by
  have hne : ∀ {P : Prop}, ¬ (P ∧ (.panic outside : Stop World)
      = .panic "sys_env_set_trapframe: %e") := by
    rintro P ⟨-, heq⟩
    exact absurd (Stop.panic.inj heq) (by decide)
  have hne' : ∀ {P : Prop}, ¬ (P ∧ (.panic "spawn: sys_page_map data: %e" : Stop World)
      = .panic "sys_env_set_trapframe: %e") := by
    rintro P ⟨-, heq⟩
    exact absurd (Stop.panic.inj heq) (by decide)
  constructor
  · intro hsafe himage
    by_contra hno
    obtain ⟨v, hv⟩ := exists_violates hno
    have hready := oneFile_ready f 3
    have hargs := oneFile_hasArgs f 3
    obtain ⟨heq, hend⟩ := hsafe _ _ _ _ _ _ hready rfl hargs
    have hspawns : (oneFile f 3).Spawns [0x61] [] f :=
      ⟨oneFile_willing f (by decide), oneFile_canOpen f (by decide),
        fun _ => ⟨(by decide : (3 : Word) ≠ 0), rfl⟩, by decide, himage⟩
    -- the run with the checks stops in another way
    have hbad : (spawn (within 0x1800) 0x1800 0x1000 0x1010).EndsOr
        (fun stop => stop = .panic outside ∨ stop = .panic "spawn: sys_page_map data: %e")
        (oneFile f 3) (fun _ _ => False) := by
      apply spawn_reaches hready rfl hargs World.Header.within_shows
      · exact fun _ _ _ hrefused _ => hrefused hspawns
      · intro _ i child w' hloading hargs' hwill _
        exact spawnChild_violates hloading hargs' (hwill hspawns.willing) hspawns.fits hv (Or.inl rfl)
          (Or.inr rfl)
    apply hbad.elim (hend.congr heq.symm)
    rintro stop (rfl | rfl)
    · exact hne
    · exact hne'
  · intro hsafe w buf path argv name args hready hf hargs
    apply spawn_within hne
    apply spawn_reaches hready hf hargs World.Header.within_shows
    · exact fun x _ hx _ _ _ => hx
    · intro himage i child w' hloading hargs' _ _
      have hor := (hsafe himage).or (B := fun stop => TableInside (binary f.data)
        ∧ stop = .panic "sys_env_set_trapframe: %e") "spawn: sys_page_map data: %e"
      apply (spawnChild_ends hloading hargs' World.Header.within_shows hor
        (fun hfit => ⟨hor.tableInside hfit, rfl⟩)).mono
      intro r _ hr hout
      cases r with
      | ok c => exact (hout (hor.tableInside (hr.accepted c rfl))).elim
      | error x => exact hr.refused x rfl

/-! ### Kernels for guests -/

/-- If nothing is refused, the violation is reached, and the loop gives up, reads elsewhere, or
ends because the addresses go round, as if all segments had been mapped. -/
theorem mapKernel_violates {n v : Nat} (h : w.Loading i q fileid f buf guest) (hwill : w.Willing)
    (hbelow : buf.toNat + HEADER ≤ UTOP) (hv : Violates f (guestSegment (binary f.data)) v)
    (hcv : c ≤ v) (hn : (binary f.data).ePhnum < n + c) (hlt : (binary f.data).phdr c < 2 ^ 32)
    (hout : B (.panic outside)) (hpanic : B (.panic "in vm.c in map guest")) :
  (mapKernel (within buf) guest (BitVec.ofNat 32 i)
    (off buf ((binary f.data).phdr (binary f.data).ePhnum)) n
    (off buf ((binary f.data).phdr c)) 0).EndsOr B w
      (fun r _ => r = 0 ∧ ¬ TableInside (binary f.data))
  := by
  obtain ⟨hvlt, hreach, hbad⟩ := hv
  induction n generalizing w c with
  | zero => omega
  | succ n ih =>
      rw [mapKernel, endsOr_ite]
      by_cases hin : InBuffer (binary f.data) c
      · have hcn : c < (binary f.data).ePhnum := by omega
        have hfield : ∀ {k}, k + 4 ≤ 32 → (within buf).ph32 (off buf ((binary f.data).phdr c)) k w
            = .ok (read32 (binary f.data) ((binary f.data).phdr c + k), w) :=
          fun hk => h.header.within_shows.ph32_eq hin hk
        have htype : (within buf).ph32 (off buf ((binary f.data).phdr c)) 0 w
            = .ok ((binary f.data).pType c, w) := hfield (by decide)
        have hlater : (¬ ((binary f.data).pType c = ELF_PROG_LOAD
            ∧ ∃ bad, (guestSegment (binary f.data) c).Bad f bad)) → c + 1 ≤ v := by
          intro hgood
          obtain rfl | hlt' := Nat.eq_or_lt_of_le hcv
          · exact (hbad.elim (fun hno => hno hin) hgood).elim
          · exact hlt'
        rw [ph_lt_iff hbelow (Nat.le_of_lt hcn) (fun _ => hin)]
        constructor
        · intro _
          rw [endsOr_bind, endsOr_of_eq htype, endsOr_ite, off_phdr_succ]
          constructor
          · intro hload
            rw [endsOr_bind, endsOr_of_eq (hfield (by decide)), endsOr_bind,
              endsOr_of_eq (hfield (by decide)), endsOr_bind, endsOr_of_eq (hfield (by decide)),
              endsOr_bind, endsOr_of_eq (hfield (by decide)), endsOr_bind, mapGuest, endsOr_bind]
            by_cases hex : ∃ bad, (guestSegment (binary f.data) c).Bad f bad
            · obtain ⟨bad, hbad'⟩ := hex
              have hpanics := segment_panics "in vm.c in map guest" h.loader proper_puw hwill hbad'
              exact endsOr_of_error hpanics |>.mpr hpanic
            · have hcv' : c + 1 ≤ v := hlater (fun hload' => hex hload'.2)
              apply (segment_ends (s := guestSegment (binary f.data) c) _ h.loader proper_puw
                (fun bad hbad' => (hex ⟨bad, hbad'⟩).elim)).mono
              intro r w1 h1
              obtain rfl := h1.maps hwill (hreach c hcv' hload)
              simp only
              rw [endsOr_pure, if_neg (by decide)]
              exact ih (h.loads h1.loads) (h1.loads.willing hwill) hcv' (by omega) (phdr_succ_lt hin)
          · intro hskip
            exact ih h hwill (hlater (fun hload => hskip hload.1)) (by omega) (phdr_succ_lt hin)
        · exact fun hno => (hno hcn).elim
      · have hstop : (within buf).ph32 (off buf ((binary f.data).phdr c)) 0 w = .error (.panic outside) :=
          ph32_outside hin hlt
        constructor
        · intro _
          rw [endsOr_bind]
          exact endsOr_of_error hstop |>.mpr hout
        · intro _
          rw [endsOr_bind]
          apply h.loader.close_ends.mono
          intro _ w1 _
          rw [endsOr_pure]
          exact ⟨rfl, fun hinside => hin (hinside c (by omega))⟩

/-- Whatever the rest of the system answers, `copy_kernel` reads the headers of the file in the buffer
only, returns, and refuses the file if its headers are not in the buffer. -/
def CopySafe (f : File) : Prop :=
  ∀ (w : World) (buf path guest : Word) (name : List Byte),
    w.Ready buf path name → w.disk name = f → w.HasGuest guest →
      copyKernel (within buf) buf guest path w = copyKernel memory buf guest path w
        ∧ ∃ r w', copyKernel memory buf guest path w = .ok (r, w')
          ∧ (¬ TableInside (binary f.data) → isError r = true)

theorem copyKernel_within (hB : ¬ B (.panic outside)) {Q : Word → World → Prop}
    (h : (copyKernel (within buf) buf guest path).EndsOr B w Q) :
  copyKernel (within buf) buf guest path w = copyKernel memory buf guest path w
    ∧ (copyKernel memory buf guest path).EndsOr B w Q
  := by
  have heq : copyKernel (within buf) buf guest path w = copyKernel memory buf guest path w :=
    (copyKernel_checks (within_checks buf) buf guest path).run_eq
      (fun hstop => hB (h.of_error hstop))
  exact ⟨heq, h.congr heq⟩

/-- If nothing is refused, an image that is not safe is loaded by a run that gives up, reads
elsewhere, or accepts headers that are not in the buffer. -/
theorem copyKernel_violates {v : Nat} (h : w.Ready buf path name) (hguest : w.HasGuest guest)
    (hf : w.disk name = f) (hwill : w.Willing) (hopen : w.CanOpen name) (himage : IsImage f.data)
    (hv : Violates f (guestSegment (binary f.data)) v)
    (hout : B (.panic outside)) (hpanic : B (.panic "in vm.c in map guest")) :
  (copyKernel (within buf) buf guest path).EndsOr B w
    (fun r _ => r = 0 ∧ ¬ TableInside (binary f.data))
  := by
  apply copyKernel_reaches h hguest hf World.Header.within_shows
  · exact fun _ _ _ hno => (hno ⟨hwill, hopen, himage⟩).elim
  · intro _ i w1 hloading _ _ hwill1
    exact mapKernel_violates hloading (hwill1 hwill) h.below hv (Nat.zero_le v) (Nat.lt_succ_self _)
      (BitVec.isLt _) hout hpanic

/-- `copy_kernel` is safe for a file exactly if the headers it reaches are. -/
theorem copySafe_iff (f : File) :
  CopySafe f ↔ (IsImage f.data → HeadersSafe f (guestSegment (binary f.data)))
  := by
  constructor
  · intro hsafe himage
    by_contra hno
    obtain ⟨v, hv⟩ := exists_violates hno
    have hready := oneFile_ready f 0
    obtain ⟨heq, r, w', hrun, hr⟩ := hsafe _ _ _ _ _ hready rfl (oneFile_hasGuest f 0)
    have hbad := copyKernel_violates (B := fun stop => stop = .panic outside
        ∨ stop = .panic "in vm.c in map guest") hready (oneFile_hasGuest f 0) rfl
      (oneFile_willing f (by decide)) (oneFile_canOpen f (by decide)) himage hv (Or.inl rfl) (Or.inr rfl)
    obtain ⟨rfl, hout⟩ := hbad.of_eq (heq.trans hrun)
    cases hr hout
  · intro hsafe w buf path guest name hready hf hguest
    have hor : IsImage f.data → HeadersOr (fun _ => False) "in vm.c in map guest" f
        (guestSegment (binary f.data)) := fun himage => (hsafe himage).or _
    obtain ⟨heq, hend⟩ := copyKernel_within id
      (copyKernel_ends hready hguest hf World.Header.within_shows hor)
    use heq
    obtain ⟨r, w', hrun, hr⟩ := hend.returns
    refine ⟨r, w', hrun, ?_⟩
    intro hout
    by_contra hok
    obtain ⟨-, himage, i, w1, w2, -, -, -, hsegs, -⟩ := hr.loaded (Bool.not_eq_true _ |>.mp hok)
    exact hout ((hor himage).tableInside (fun j hj => hsegs.fits j (Nat.zero_le j) hj))

/-- An image with one program header, which is said to be at `phoff`. -/
def farHeader (phoff : Word) : Memory :=
  write32 (write8 (write32 (fun _ => 0) 0 ELF_MAGIC) 44 1) 28 phoff

theorem farHeader_isImage (phoff : Word) :
  IsImage (headerOnly (farHeader phoff)).data
  := by
  use Nat.le_of_eq (headerOnly_length _).symm
  rw [Binary.eMagic, read32_headerOnly _ (by decide)]
  simp (disch := decide) only [farHeader, read32_write32, read32_write32_of_disjoint,
    read32_write8_of_disjoint]

theorem farHeader_fields (phoff : Word) :
  (binary (headerOnly (farHeader phoff)).data).ePhnum = 1
    ∧ (binary (headerOnly (farHeader phoff)).data).phdr 0 = phoff.toNat
  := by
  rw [Binary.ePhnum, binary_headerOnly _ (by decide), binary_headerOnly _ (by decide), Binary.phdr,
    Binary.ePhoff, read32_headerOnly _ (by decide)]
  simp (disch := decide) only [farHeader, write32_of_disjoint, read32_write32]
  exact ⟨rfl, rfl⟩

end User

end Jos
