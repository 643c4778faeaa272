import Jos.Kern.Accounting

/-!
# Environment identifiers

An identifier holds the index of an environment in its low bits and above them a
generation, which grows each time the environment is created and starts again before the
identifier would be negative.  Here the kernel only creates and frees environments, and
leaves one free at every time.  Every identifier given out is then known from the number
of identifiers given out for its environment before.

The environments that were ever created are the first ones of `envs`, and those of them
that are free precede all others on the list of free environments.  The pages suffice for
all of them at the same time, so that one that was freed can be created again.
-/

namespace Jos

open Bytes

variable {avail : Finset Nat} {l fl : List Nat} {s s' : Kernel}

/-! ### Generations -/

/-- The number of identifiers an environment can have. -/
def generations : Nat := 2 ^ 19 - 1

/-- The identifier the environment `e` has when it is created after `n` times. -/
def genId (e n : Nat) : Word :=
  BitVec.ofNat 32 ((n % generations + 1) * 4096 + e)

theorem genId_toNat {e : Nat} (he : e < NENV) (n : Nat) :
  (genId e n).toNat = (n % generations + 1) * 4096 + e
  := by
  have hlt := Nat.mod_lt n (show 0 < generations by decide)
  simp only [NENV, generations] at he hlt
  rw [genId, BitVec.toNat_ofNat, generations, Nat.mod_eq_of_lt]
  omega

theorem toNat_clear_low (w : Word) :
  (w &&& ~~~ (1023 : Word)).toNat = w.toNat / 1024 * 1024
  := by
  have hmask : ∀ i < 32, (1023 : Word).getLsbD i = decide (i < 10) := by decide
  have h : w &&& ~~~ (1023 : Word) = (w >>> 10) <<< 10 := by
    apply BitVec.eq_of_getLsbD_eq
    intro i hi
    rw [BitVec.getLsbD_and, BitVec.getLsbD_not, hmask i hi, BitVec.getLsbD_shiftLeft,
      BitVec.getLsbD_ushiftRight]
    by_cases h10 : i < 10
    · simp [h10]
    · simp [h10, hi, show 10 + (i - 10) = i by omega]
  rw [h, BitVec.toNat_shiftLeft, BitVec.toNat_ushiftRight, Nat.shiftRight_eq_div_pow,
    Nat.shiftLeft_eq]
  have := w.isLt
  rw [Nat.mod_eq_of_lt]
  omega

theorem ENVX_genId {e : Nat} (he : e < NENV) (n : Nat) :
  ENVX (genId e n) = e
  := by
  have h : ENVX (genId e n) = (genId e n).toNat % 1024 := by
    rw [ENVX, BitVec.toNat_and]
    apply Nat.and_two_pow_sub_one_eq_mod _ 10
  rw [h, genId_toNat he]
  simp only [NENV] at he
  omega

theorem genId_pos {e : Nat} (he : e < NENV) (n : Nat) :
  0 < (genId e n).toInt
  := by
  have hlt := Nat.mod_lt n (show 0 < generations by decide)
  have h := genId_toNat he n
  simp only [NENV, generations] at he hlt h
  rw [BitVec.toInt_eq_toNat_of_lt]
  · omega
  · omega

/-- The next identifier in terms of the generations. -/
theorem nextEnvId_toNat {e g : Nat} {w : Word} (he : e < NENV) (hg : g < 2 ^ 19)
    (hw : w.toNat / 1024 = g * 4) :
  (nextEnvId e w).toNat = (if g + 1 < 2 ^ 19 then g + 1 else 1) * 4096 + e
  := by
  obtain ⟨y, hy⟩ : ∃ y, y = (w + (1 : Word) <<< ENVGENSHIFT) &&& ~~~ (1023 : Word) := ⟨_, rfl⟩
  have hyn : y.toNat = (g + 1) * 4096 := by
    rw [hy, toNat_clear_low, BitVec.toNat_add,
      show ((1 : Word) <<< ENVGENSHIFT).toNat = 4096 by decide]
    omega
  rw [nextEnvId]
  simp only [← hy]
  have hor : ∀ k, k < 2 ^ 20 → ∀ v : Word, v.toNat = k * 4096 →
      (v ||| BitVec.ofNat 32 e).toNat = k * 4096 + e := by
    intro k hk v hv
    simp only [NENV] at he
    rw [BitVec.toNat_or, hv, BitVec.toNat_ofNat, Nat.mod_eq_of_lt (a := e) (by omega)]
    have h := Nat.two_pow_add_eq_or_of_lt (i := 12) (b := e) (by omega) k
    rw [Nat.mul_comm k]
    exact h.symm
  by_cases hlt : g + 1 < 2 ^ 19
  · rw [if_pos hlt, if_neg]
    · apply hor _ (by omega) _ hyn
    · rw [BitVec.sle_eq_decide, decide_eq_true_eq, BitVec.toInt_eq_toNat_of_lt (by omega)]
      simp
      omega
  · rw [if_neg hlt, if_pos]
    · apply hor 1 (by omega)
      decide
    · rw [BitVec.sle_eq_decide, decide_eq_true_eq, BitVec.toInt_eq_toNat_cond]
      simp
      omega

theorem nextEnvId_zero {e : Nat} (he : e < NENV) :
  nextEnvId e 0 = genId e 0
  := by
  apply BitVec.eq_of_toNat_eq
  rw [nextEnvId_toNat (g := 0) he (by decide) (by decide), genId_toNat he]
  rfl

theorem nextEnvId_genId {e : Nat} (he : e < NENV) (n : Nat) :
  nextEnvId e (genId e n) = genId e (n + 1)
  := by
  have hlt := Nat.mod_lt n (show 0 < generations by decide)
  apply BitVec.eq_of_toNat_eq
  have hid := genId_toNat he n
  rw [nextEnvId_toNat (g := n % generations + 1) he, genId_toNat he, Nat.add_mod]
  · by_cases h : n % generations + 1 + 1 < 2 ^ 19
    · rw [if_pos h]
      simp only [generations] at h hlt ⊢
      omega
    · rw [if_neg h]
      simp only [generations] at h hlt ⊢
      omega
  · simp only [generations] at hlt ⊢
    omega
  · simp only [NENV] at he
    omega

/-- Identifiers of one environment that are close are different. -/
theorem genId_inj {e i j : Nat} (he : e < NENV) (hij : i < j) (hclose : j - i < generations) :
  genId e i ≠ genId e j
  := by
  intro heq
  have h := congrArg BitVec.toNat heq
  rw [genId_toNat he, genId_toNat he] at h
  have hmod : i % generations = j % generations := by omega
  simp only [generations] at hmod hclose
  omega


/-! ### Runs -/

/-- An environment was created with an identifier, or freed while it had one. -/
inductive EnvEvent where
  | gave (e : Nat) (id : Word)
  | freed (e : Nat) (id : Word)

/-- The identifiers given out for the environment `e`, the most recent one first. -/
def given (e : Nat) : List EnvEvent → List Word
  | [] => []
  | .gave e' id :: ev => if e' = e then id :: given e ev else given e ev
  | .freed _ _ :: ev => given e ev

/-- Create an environment with one of the two allocators. -/
def allocEnv (guest : Bool) (parentId : Word) : Prog Kernel (Except Word Nat) :=
  if guest then envGuestAlloc parentId else envAlloc parentId

/-- Some environment is free. -/
def Kernel.SomeFree (s : Kernel) : Prop :=
  ∃ e < NENV, (s.envs e).envStatus = .ENV_FREE

/-- What the kernel has done since boot, the most recent event first, when it creates and
frees environments and keeps one free. -/
inductive IdRun (avail : Finset Nat) : List EnvEvent → Kernel → Prop
  | boot {s s' : Kernel} (hboot : AfterMemInit avail s) (hinit : envInit s = .ok ((), s')) :
    IdRun avail [] s'
  | alloc {ev : List EnvEvent} {s s' : Kernel} {guest : Bool} {parentId : Word} {e : Nat}
      (hrun : IdRun avail ev s) (heq : allocEnv guest parentId s = .ok (.ok e, s'))
      (hroom : s'.SomeFree) :
    IdRun avail (.gave e (s'.envs e).envId :: ev) s'
  | refused {ev : List EnvEvent} {s s' : Kernel} {guest : Bool} {parentId : Word} {r : Word}
      (hrun : IdRun avail ev s) (heq : allocEnv guest parentId s = .ok (.error r, s')) :
    IdRun avail ev s'
  | free {ev : List EnvEvent} {s s' : Kernel} {e : Nat}
      (hrun : IdRun avail ev s) (hlive : s.Live e) (heq : envFree e s = .ok ((), s')) :
    IdRun avail (.freed e (s.envs e).envId :: ev) s'

/-- The identifiers given out for an environment that was created `n` times. -/
def genIds (e : Nat) : Nat → List Word
  | 0 => []
  | n + 1 => genId e n :: genIds e n

theorem genIds_length (e n : Nat) :
  (genIds e n).length = n
  := by
  induction n with
  | zero => rfl
  | succ n ih => rw [genIds, List.length_cons, ih]

/-- The identifier `i` places before the most recent one. -/
theorem genIds_getElem? {e n i : Nat} (hi : i < n) :
  (genIds e n)[i]? = some (genId e (n - 1 - i))
  := by
  induction n generalizing i with
  | zero => omega
  | succ n ih =>
      cases i with
      | zero => rfl
      | succ i =>
          rw [genIds, List.getElem?_cons_succ, ih (by omega)]
          congr 2
          omega

/-- The identifier given out next for an environment with the identifiers `genIds e n`. -/
theorem nextEnvId_genIds {e : Nat} (he : e < NENV) (n : Nat) :
  nextEnvId e ((genIds e n).headD 0) = genId e n
  := by
  cases n with
  | zero => apply nextEnvId_zero he
  | succ n => apply nextEnvId_genId he

/-! ### What holds in every state of a run -/

/-- Nothing but page directories refers to a page below `UTOP`. -/
def Kernel.Bare (s : Kernel) : Prop :=
  ∀ x, (∀ e, x ≠ .dir e) → (∀ d, x ≠ .kern d) → s.slotRef x = none

/-- Where nothing but page directories refers to a page, no page is mapped. -/
theorem Kernel.Bare.mappings (h : s.Bare) (p : Nat) :
  s.mappings p = 0
  := by
  rw [Kernel.mappings, refCount.eq_zero_iff]
  intro x hx
  have hm := (Finset.mem_filter.mp hx).2
  rw [h]
  · simp
  · rintro e rfl
    apply hm
  · rintro d rfl
    apply hm

/-- The free environments `fl` and the free pages `l` when the first `h` environments have
been created before, and there are pages for `n` directories. -/
structure Reused (avail : Finset Nat) (n h : Nat) (front l : List Nat) (s : Kernel) : Prop where
  mem : MemInv avail ∅ (fun _ => 0) l s
  env : EnvInv (front ++ List.range' h (NENV - h)) s
  dirs : DirInv s
  bare : s.Bare
  front_lt : ∀ e ∈ front, e < h
  lt_NENV : h < NENV
  le_pages : h ≤ n
  pages : l.length = n - h + front.length

/-- The identifiers of the environments are those the events `ev` tell of. -/
structure Numbered (ev : List EnvEvent) (h : Nat) (s : Kernel) : Prop where
  ids : ∀ e < NENV, given e ev = genIds e (given e ev).length
  envId : ∀ e < NENV, (s.envs e).envId = (given e ev).headD 0
  created : ∀ e < h, given e ev ≠ []
  freed : ∀ ev₁ ev₂ e id, ev = ev₁ ++ .freed e id :: ev₂ →
    e < h ∧ (∃ n, id = genId e n) ∧ (s.Live e → .gave e (s.envs e).envId ∈ ev₁)

namespace Reused

variable {n h : Nat} {front : List Nat}

theorem wf (hr : Reused avail n h front l s) :
  Wf avail ∅ (fun _ => 0) s
  := by
  constructor
  case mem => exact ⟨l, hr.mem⟩
  case env => exact ⟨_, hr.env⟩
  case dirs => apply hr.dirs

theorem mappings (hr : Reused avail n h front l s) (p : Nat) :
  s.mappings p = 0
  := hr.bare.mappings p

/-- A live environment was created before. -/
theorem lt_of_live (hr : Reused avail n h front l s) {e : Nat} (hlive : s.Live e) :
  e < h
  := by
  by_contra hge
  have hlt := hr.lt_NENV
  have helt := hlive.1
  have hmem : e ∈ front ++ List.range' h (NENV - h) := by
    apply List.mem_append_right
    rw [List.mem_range'_1]
    omega
  apply hlive.2 ((hr.env.mem_free e).mp hmem).2

end Reused

/-! ### Boot -/

/-- After `env_init` no environment has been created. -/
theorem boot_reused (hboot : AfterMemInit avail s) (hinit : envInit s = .ok ((), s')) :
  ∃ l, Reused avail l.length 0 [] l s' ∧ Numbered [] 0 s'
  := by
  have hwf := (hboot.wf hinit).1
  obtain ⟨l, hl⟩ := hwf.mem
  obtain ⟨s1, heq, ⟨envs, hs1⟩, hfree⟩ := envInit_ok s
  obtain rfl := (Prog.ok_inj heq hinit).2
  use l
  constructor
  · constructor
    case mem => exact hl
    case env =>
      rw [List.nil_append, Nat.sub_zero, ← List.range_eq_range']
      apply envInv_of_init hfree
      rw [hs1]
    case dirs => apply hwf.dirs
    case bare =>
      intro x _ hkern
      apply slotRef_of_free (fun e he => (hfree e he).1) hkern
    case front_lt =>
      intro e he
      cases he
    case lt_NENV => decide
    case le_pages => apply Nat.zero_le
    case pages => rfl
  · constructor
    case ids =>
      intro e _
      rfl
    case envId =>
      intro e he
      apply (hfree e he).2.2
    case created =>
      intro e he
      omega
    case freed =>
      intro ev₁ ev₂ e id hev
      have := congrArg List.length hev
      simp at this

/-! ### Creating an environment -/

section Alloc

variable {n h : Nat} {front : List Nat} {ev : List EnvEvent}

/-- Whichever allocator is called, the environment is initialized in the same way but for
its type. -/
theorem allocEnv_eq (guest : Bool) (parentId : Word) :
  ∃ type, allocEnv guest parentId = envAllocType type parentId
  := by
  cases guest with
  | false => exact ⟨.ENV_TYPE_USER, rfl⟩
  | true => exact ⟨.ENV_TYPE_GUEST, rfl⟩

/-- The first environment on the free list is created, if there is a page for its
directory. -/
theorem allocEnv_ok (hr : Reused avail n h front l s) (guest : Bool) (parentId : Word) :
  (l = [] ∧ allocEnv guest parentId s = .ok (.error (-E_NO_MEM), s)) ∨
  (∃ (e : Fin NENV) (p : Nat) (l' fl' : List Nat) (s' : Kernel) (type : EnvType),
    front ++ List.range' h (NENV - h) = e.val :: fl' ∧ l = p :: l'
    ∧ allocEnv guest parentId s = .ok (.ok e.val, s')
    ∧ Created e p type parentId s s' ∧ MemInv avail ∅ (fun _ => 0) l' s' ∧ EnvInv fl' s')
  := by
  have hlt := hr.lt_NENV
  have hfree : ∃ e < NENV, (s.envs e).envStatus = .ENV_FREE := by
    use h, hlt
    refine ((hr.env.mem_free h).mp ?_).2
    apply List.mem_append_right
    rw [List.mem_range'_1]
    omega
  obtain ⟨type, htype⟩ := allocEnv_eq guest parentId
  rw [htype]
  obtain hnone | ⟨e, p, l', fl', s', hfl, hl, heq, hc, hmem, henv⟩ :=
    envAllocType_ok hr.mem hr.env (Ledger.head_ne_of_free hr.env hfree) type parentId
  · left
    apply hnone
  · right
    exact ⟨e, p, l', fl', s', type, hfl, hl, heq, hc, hmem, henv⟩

/-- Creating an environment makes nothing but a directory refer to a page. -/
theorem Kernel.Bare.created {e : Fin NENV} {p : Nat} {type : EnvType} {parentId : Word}
    (hb : s.Bare) (hc : Created e p type parentId s s') :
  s'.Bare
  := by
  intro x hdir hkern
  rw [hc.slotRef, Function.update_of_ne (hdir e)]
  apply hb x hdir hkern

/-- The environment that was created is the most recently freed one, or one that was never
created before. -/
theorem Reused.created (hr : Reused avail n h front l s) {e : Fin NENV} {p : Nat}
    {l' fl' : List Nat} {type : EnvType} {parentId : Word}
    (hfl : front ++ List.range' h (NENV - h) = e.val :: fl') (hl : l = p :: l')
    (hc : Created e p type parentId s s') (hmem : MemInv avail ∅ (fun _ => 0) l' s')
    (henv : EnvInv fl' s') (hroom : s'.SomeFree) :
  ∃ h' front', Reused avail n h' front' l' s' ∧ h ≤ h'
    ∧ (∀ i < h', i < h ∨ i = e) ∧ front' = front.tail
  := by
  have hpages := hr.pages
  rw [hl, List.length_cons] at hpages
  cases front with
  | nil =>
      have hlt := hr.lt_NENV
      rw [List.nil_append, show NENV - h = NENV - (h + 1) + 1 by omega, List.range'_succ] at hfl
      obtain ⟨he, rfl⟩ := List.cons.inj hfl
      rw [List.length_nil] at hpages
      have hlt' : h + 1 < NENV := by
        obtain ⟨e', he', hst⟩ := hroom
        have hm := (henv.mem_free e').mpr ⟨he', hst⟩
        rw [List.mem_range'_1] at hm
        omega
      use h + 1, []
      constructor
      · constructor
        case mem => apply hmem
        case env => apply henv
        case dirs => apply hr.dirs.created hc hmem
        case bare => apply hr.bare.created hc
        case front_lt =>
          intro e he
          cases he
        case lt_NENV => apply hlt'
        case le_pages => omega
        case pages =>
          rw [List.length_nil]
          omega
      · use by omega
        constructor
        · intro i hi
          omega
        · rfl
  | cons e' front' =>
      rw [List.cons_append] at hfl
      obtain ⟨he, rfl⟩ := List.cons.inj hfl
      rw [List.length_cons] at hpages
      use h, front'
      constructor
      · constructor
        case mem => apply hmem
        case env => apply henv
        case dirs => apply hr.dirs.created hc hmem
        case bare => apply hr.bare.created hc
        case front_lt =>
          intro i hi
          apply hr.front_lt i (List.mem_cons_of_mem _ hi)
        case lt_NENV => apply hr.lt_NENV
        case le_pages => apply hr.le_pages
        case pages => omega
      · use Nat.le_refl h
        constructor
        · intro i hi
          left
          exact hi
        · rfl

/-- The environment that was created has the next identifier. -/
theorem Numbered.after_create (hn : Numbered ev h s) {h' : Nat} {e : Fin NENV} {p : Nat}
    {type : EnvType} {parentId : Word} (hc : Created e p type parentId s s') (hle : h ≤ h')
    (hnew : ∀ i < h', i < h ∨ i = e) :
  Numbered (.gave e (s'.envs e).envId :: ev) h' s'
    ∧ (s'.envs e).envId = genId e (given e ev).length
  := by
  have hlt := e.isLt
  have hid : (s'.envs e).envId = genId e (given e ev).length := by
    rw [hc.envs, Function.update_self, newEnv]
    simp only
    rw [hn.envId e hlt, hn.ids e hlt, nextEnvId_genIds hlt, genIds_length]
  have hother : ∀ e' ≠ e.val, s'.envs e' = s.envs e' := by
    intro e' he'
    rw [hc.envs, Function.update_of_ne he']
  have hgiven : ∀ e', given e' (.gave e (s'.envs e).envId :: ev)
      = if e.val = e' then (s'.envs e).envId :: given e' ev else given e' ev := by
    intro e'
    rfl
  refine ⟨?_, hid⟩
  constructor
  case ids =>
    intro e' he'
    rw [hgiven]
    by_cases hee : e.val = e'
    · subst hee
      rw [if_pos rfl, List.length_cons, genIds, hid, ← hn.ids _ he']
    · rw [if_neg hee]
      apply hn.ids e' he'
  case envId =>
    intro e' he'
    rw [hgiven]
    by_cases hee : e.val = e'
    · rw [if_pos hee, ← hee]
      rfl
    · rw [if_neg hee, hother e' (Ne.symm hee)]
      apply hn.envId e' he'
  case created =>
    intro e' he'
    rw [hgiven]
    by_cases hee : e.val = e'
    · rw [if_pos hee]
      simp
    · rw [if_neg hee]
      obtain hold | hself := hnew e' he'
      · apply hn.created e' hold
      · exact (hee hself.symm).elim
  case freed =>
    intro ev₁ ev₂ e' id hev
    cases ev₁ with
    | nil => cases hev
    | cons x ev₁ =>
        obtain ⟨hx, hev⟩ := List.cons.inj hev
        obtain ⟨hlt', hgen, hlive⟩ := hn.freed ev₁ ev₂ e' id hev
        use by omega, hgen
        intro hl
        by_cases hee : e' = e.val
        · rw [hee, hx]
          apply List.mem_cons_self
        · rw [hother e' hee]
          apply List.mem_cons_of_mem
          apply hlive
          rw [Kernel.Live, hother e' hee] at hl
          apply hl

end Alloc

/-! ### Freeing an environment -/

section Free

variable {n h : Nat} {front : List Nat} {ev : List EnvEvent} {held : Finset Nat}

/-- When nothing else is mapped, freeing an environment gives up its directory only. -/
theorem Freed.slotRef {e : Fin NENV} (hf : Freed held e s s') (hb : s.Bare) :
  s'.slotRef = Function.update s.slotRef (.dir e) none
  := by
  funext x
  cases x with
  | dir e' =>
      by_cases he : e' = e
      · rw [he, Function.update_self]
        apply hf.pgdir_self
      · rw [Function.update_of_ne (by simp [he])]
        apply hf.pgdir_of_ne (fun h => he (Fin.ext h))
  | table e' d =>
      rw [Function.update_of_ne (by simp)]
      obtain heq | hnone := hf.shrinks (.table e' d)
      · apply heq
      · rw [hnone, hb _ (by simp) (by simp)]
  | page e' d t =>
      rw [Function.update_of_ne (by simp)]
      obtain heq | hnone := hf.shrinks (.page e' d t)
      · apply heq
      · rw [hnone, hb _ (by simp) (by simp)]
  | kern d =>
      rw [Function.update_of_ne (by simp)]
      have hk : s'.kernPgdir = s.kernPgdir := by rw [hf.quiet]
      rw [Kernel.slotRef, Kernel.slotRef, hk, hf.kern d d.isLt]

/-- A page that is no longer referred to by its owner is free. -/
theorem MemInv.length_of_released {l' : List Nat} {x : Slot} {pg : Nat}
    (hl : MemInv avail ∅ (fun _ => 0) l s) (hl' : MemInv avail ∅ (fun _ => 0) l' s')
    (hx : s.slotRef x = some pg) (howns : x.Owns)
    (href : s'.slotRef = Function.update s.slotRef x none) :
  l'.length = l.length + 1
  := by
  have hone : s.refs pg = 1 := by
    apply refCount.eq_one (mem_slots x) hx
    intro y _ hy
    apply hl.balanced.owned x y pg howns hx hy
  have hrefs : ∀ p, s'.refs p = if p = pg then 0 else s.refs p := by
    intro p
    have hr := refs_update href p
    rw [hx] at hr
    by_cases hp : p = pg
    · subst hp
      rw [if_pos rfl, hone, if_neg (by simp)] at hr
      rw [if_pos rfl]
      omega
    · rw [if_neg (fun h => hp (Option.some.inj h).symm), if_neg (by simp)] at hr
      rw [if_neg hp]
      omega
  have hpg : pg ∉ l := by
    rw [hl.mem_iff]
    omega
  have hperm : l'.Perm (pg :: l) := by
    apply (List.perm_ext_iff_of_nodup hl'.balanced.nodup
      (List.nodup_cons.mpr ⟨hpg, hl.balanced.nodup⟩)).mpr
    intro p
    change p ∈ l' ↔ _
    rw [hl'.mem_iff, hrefs, List.mem_cons, hl.mem_iff]
    by_cases hp : p = pg
    · rw [if_pos hp]
      simp [hp, Kernel.mem_avail hl hx]
    · rw [if_neg hp]
      simp [hp]
  rw [hperm.length_eq, List.length_cons]

/-- The environment that was freed is the next one to be created. -/
theorem Reused.freed (hr : Reused avail n h front l s) {e : Nat} (hlive : s.Live e) :
  ∃ l' s', envFree e s = .ok ((), s') ∧ Reused avail n h (e :: front) l' s'
    ∧ s'.envs = Function.update s.envs e { s.envs e with
      envPgdir := none
      envStatus := .ENV_FREE
      envLink := s.envFreeList }
  := by
  have hfits := Ledger.fits_of_mappings hr.wf hr.mappings
  obtain ⟨pg, -, hpg⟩ := hlive.pgdir hr.env
  obtain ⟨s', l', heq, hf, hmem, henv⟩ := envFree_ok (e := ⟨e, hlive.1⟩) hr.mem hr.env hlive hfits
  have href := hf.slotRef hr.bare
  use l', s', heq
  constructor
  · constructor
    case mem => apply hmem
    case env => apply henv
    case dirs => apply hr.dirs.freed hf
    case bare =>
      intro x hdir hkern
      rw [href, Function.update_of_ne (hdir _)]
      apply hr.bare x hdir hkern
    case front_lt =>
      intro e' he'
      obtain rfl | he' := List.mem_cons.mp he'
      · apply hr.lt_of_live hlive
      · apply hr.front_lt e' he'
    case lt_NENV => apply hr.lt_NENV
    case le_pages => apply hr.le_pages
    case pages =>
      have hpages := hr.pages
      rw [MemInv.length_of_released hr.mem hmem (x := .dir ⟨e, hlive.1⟩) hpg trivial href,
        List.length_cons]
      omega
  · apply hf.envs

/-- Freeing an environment keeps its identifier. -/
theorem Numbered.after_free (hn : Numbered ev h s) {e : Nat} (helt : e < h) (hlt : h < NENV)
    (henvs : s'.envs = Function.update s.envs e { s.envs e with
      envPgdir := none
      envStatus := .ENV_FREE
      envLink := s.envFreeList }) :
  Numbered (.freed e (s.envs e).envId :: ev) h s'
  := by
  have hid : ∀ e', (s'.envs e').envId = (s.envs e').envId := by
    intro e'
    rw [henvs]
    by_cases he : e' = e
    · rw [he, Function.update_self]
    · rw [Function.update_of_ne he]
  constructor
  case ids => apply hn.ids
  case envId =>
    intro e' he'
    rw [hid]
    apply hn.envId e' he'
  case created => apply hn.created
  case freed =>
    have hnot : ¬ s'.Live e := by
      intro hl
      apply hl.2
      rw [henvs, Function.update_self]
    have hlive : ∀ {e'}, s'.Live e' → e' ≠ e ∧ s.Live e' := by
      intro e' hl
      have hne : e' ≠ e := by
        rintro rfl
        apply hnot hl
      use hne
      rw [Kernel.Live, henvs, Function.update_of_ne hne] at hl
      apply hl
    intro ev₁ ev₂ e' id hev
    cases ev₁ with
    | nil =>
        obtain ⟨heq, -⟩ := List.cons.inj hev
        obtain ⟨rfl, rfl⟩ := EnvEvent.freed.inj heq
        use helt
        constructor
        · have hne := hn.created e helt
          have hgiven := hn.ids e (by omega)
          rw [hn.envId e (by omega), hgiven]
          cases hk : (given e ev).length with
          | zero => exact (hne (List.eq_nil_of_length_eq_zero hk)).elim
          | succ k => exact ⟨k, rfl⟩
        · intro hl
          exact (hnot hl).elim
    | cons x ev₁ =>
        obtain ⟨-, hev⟩ := List.cons.inj hev
        obtain ⟨hlt', hgen, hgave⟩ := hn.freed ev₁ ev₂ e' id hev
        use hlt', hgen
        intro hl
        obtain ⟨-, hl'⟩ := hlive hl
        rw [hid]
        apply List.mem_cons_of_mem _ (hgave hl')

end Free

/-! ### Whole runs -/

section Runs

variable {n h : Nat} {front : List Nat} {ev : List EnvEvent}

/-- Creating an environment that leaves one free continues a run, and keeps what holds in
its states. -/
theorem Reused.gave (hr : Reused avail n h front l s) (hn : Numbered ev h s) {guest : Bool}
    {parentId : Word} {e : Nat} (heq : allocEnv guest parentId s = .ok (.ok e, s'))
    (hroom : s'.SomeFree) :
  ∃ h' l', Reused avail n h' front.tail l' s' ∧ Numbered (.gave e (s'.envs e).envId :: ev) h' s'
  := by
  obtain ⟨-, hnone⟩ | ⟨e', p, l', fl', s1, type, hfl, hl, heq1, hc, hmem, henv⟩ :=
    allocEnv_ok hr guest parentId
  · obtain ⟨hres, -⟩ := Prog.ok_inj heq hnone
    cases hres
  · obtain ⟨hres, rfl⟩ := Prog.ok_inj heq heq1
    obtain rfl := Except.ok.inj hres
    obtain ⟨h', front', hr', hle, hnew, rfl⟩ := hr.created hfl hl hc hmem henv hroom
    use h', l', hr'
    apply (hn.after_create hc hle hnew).1

/-- In every state of a run the free environments are in order, and the identifiers are
those that were given out. -/
theorem IdRun.numbered (hrun : IdRun avail ev s) :
  ∃ n h front l, Reused avail n h front l s ∧ Numbered ev h s
  := by
  induction hrun with
  | boot hboot hinit =>
      obtain ⟨l, hr, hn⟩ := boot_reused hboot hinit
      use l.length, 0, [], l
  | alloc hrun heq hroom ih =>
      obtain ⟨n, h, front, l, hr, hn⟩ := ih
      obtain ⟨h', l', hr', hn'⟩ := hr.gave hn heq hroom
      use n, h', front.tail, l'
  | @refused ev s s' guest parentId r hrun heq ih =>
      obtain ⟨n, h, front, l, hr, hn⟩ := ih
      obtain ⟨-, heq1⟩ | ⟨e, p, l', fl', s1, type, -, -, heq1, -, -, -⟩ :=
        allocEnv_ok hr guest parentId
      · obtain ⟨-, rfl⟩ := Prog.ok_inj heq heq1
        use n, h, front, l
      · obtain ⟨hres, -⟩ := Prog.ok_inj heq heq1
        cases hres
  | @free ev s s' e hrun hlive heq ih =>
      obtain ⟨n, h, front, l, hr, hn⟩ := ih
      obtain ⟨l', s1, heq1, hr', henvs⟩ := hr.freed hlive
      obtain ⟨-, rfl⟩ := Prog.ok_inj heq heq1
      use n, h, e :: front, l', hr'
      apply hn.after_free (hr.lt_of_live hlive) hr.lt_NENV henvs

/-- An environment that was freed comes to the head of the free list by creating those in
front of it, for which there are pages. -/
theorem Reused.again (hr : Reused avail n h front l s) (hn : Numbered ev h s)
    (hrun : IdRun avail ev s) {e : Nat} (he : e ∈ front) :
  ∃ ev' id s', IdRun avail (.gave e id :: (ev' ++ ev)) s' ∧ ∀ x ∈ ev', ∃ e' id', x = .gave e' id'
  := by
  induction front generalizing h l s ev with
  | nil => cases he
  | cons e' front ih =>
      have hpages := hr.pages
      rw [List.length_cons] at hpages
      obtain ⟨rfl, -⟩ | ⟨e1, p, l', fl', s', type, hfl, hl, heq, hc, hmem, henv⟩ :=
        allocEnv_ok hr false 0
      · rw [List.length_nil] at hpages
        omega
      · obtain ⟨rfl, rfl⟩ := List.cons.inj hfl
        have hroom : s'.SomeFree := by
          use h, hr.lt_NENV
          refine ((henv.mem_free h).mp ?_).2
          apply List.mem_append_right
          have hlt := hr.lt_NENV
          rw [List.mem_range'_1]
          omega
        have hrun' := hrun.alloc heq hroom
        obtain rfl | he := List.mem_cons.mp he
        · use [], (s'.envs e1).envId, s', hrun'
          intro x hx
          cases hx
        · obtain ⟨h', l'', hr', hn'⟩ := hr.gave hn heq hroom
          obtain ⟨ev', id, s'', hrun'', hgave⟩ := ih hr' hn' hrun' he
          use ev' ++ [.gave e1 (s'.envs e1).envId], id, s''
          rw [List.append_assoc]
          use hrun''
          intro x hx
          obtain hx | hx := List.mem_append.mp hx
          · apply hgave x hx
          · rw [List.mem_singleton] at hx
            exact ⟨_, _, hx⟩

/-- What the identifiers are good for. The names of environments that are in use are
positive, tell the index and differ; names given out for one environment differ unless all
generations were used between them; no environment is handed out while it is in use, and
one that was freed can be handed out again; and the name of one that was freed names
nothing until it is given out again. -/
structure Identified (avail : Finset Nat) (ev : List EnvEvent) (s : Kernel) : Prop where
  live : ∀ e, s.Live e → 0 < (s.envs e).envId.toInt ∧ ENVX (s.envs e).envId = e
  distinct : ∀ e e', s.Live e → s.Live e' → (s.envs e).envId = (s.envs e').envId → e = e'
  fresh : ∀ e < NENV, ∀ i j, i < j → j < i + (2 ^ 19 - 1) → j < (given e ev).length →
    (given e ev)[i]? ≠ (given e ev)[j]?
  handed : ∀ guest parentId, allocEnv guest parentId s = .ok (.error (-E_NO_MEM), s) ∨
    ∃ e s', allocEnv guest parentId s = .ok (.ok e, s') ∧ e < NENV ∧ ¬ s.Live e ∧ s'.Live e
  freeable : ∀ e, s.Live e → ∃ s', envFree e s = .ok ((), s') ∧ ¬ s'.Live e
  again : ∀ e id, .freed e id ∈ ev → ¬ s.Live e → ∃ ev' id' s',
    IdRun avail (.gave e id' :: (ev' ++ ev)) s' ∧ ∀ x ∈ ev', ∃ e' id'', x = .gave e' id''
  stale : ∀ ev₁ ev₂ e id, ev = ev₁ ++ .freed e id :: ev₂ → (∀ e', .gave e' id ∉ ev₁) →
    ∀ checkperm, envid2env id checkperm s = .ok (none, s)

/-- The identifier of an environment in use is one of its own. -/
theorem Numbered.live_genId (hr : Reused avail n h front l s) (hn : Numbered ev h s) {e : Nat}
    (hlive : s.Live e) :
  ∃ k, (s.envs e).envId = genId e k
  := by
  have hne := hn.created e (hr.lt_of_live hlive)
  rw [hn.envId e hlive.1, hn.ids e hlive.1]
  cases hk : (given e ev).length with
  | zero => exact (hne (List.eq_nil_of_length_eq_zero hk)).elim
  | succ k => exact ⟨k, rfl⟩

/-- A name that names no environment in use is not found. -/
theorem envid2env_none {id : Word} (h0 : id ≠ 0)
    (hnone : (s.envs (ENVX id)).envStatus = .ENV_FREE ∨ (s.envs (ENVX id)).envId ≠ id)
    (checkperm : Bool) :
  envid2env id checkperm s = .ok (none, s)
  := by
  rw [envid2env, if_neg h0, Prog.get_bind, if_pos hnone]
  rfl

/-- In every state of every run the identifiers are what they should be. -/
theorem IdRun.identified (hrun : IdRun avail ev s) :
  Identified avail ev s
  := by
  obtain ⟨n, h, front, l, hr, hn⟩ := hrun.numbered
  have hENVX : ∀ e, s.Live e → ENVX (s.envs e).envId = e := by
    intro e hlive
    obtain ⟨k, hk⟩ := hn.live_genId hr hlive
    rw [hk, ENVX_genId hlive.1]
  constructor
  case live =>
    intro e hlive
    obtain ⟨k, hk⟩ := hn.live_genId hr hlive
    refine ⟨?_, hENVX e hlive⟩
    rw [hk]
    apply genId_pos hlive.1
  case distinct =>
    intro e e' hlive hlive' hid
    rw [← hENVX e hlive, hid, hENVX e' hlive']
  case fresh =>
    intro e he i j hij hclose hj
    rw [hn.ids e he, genIds_getElem? (by omega), genIds_getElem? hj]
    intro heq
    apply genId_inj (i := (given e ev).length - 1 - j) (j := (given e ev).length - 1 - i) he
    · omega
    · simp only [generations]
      omega
    · exact (Option.some.inj heq).symm
  case handed =>
    intro guest parentId
    obtain ⟨-, heq⟩ | ⟨e, p, l', fl', s', type, -, -, heq, hc, -, -⟩ := allocEnv_ok hr guest parentId
    · left
      exact heq
    · right
      use e.val, s', heq, e.isLt
      constructor
      · intro hlive
        apply hlive.2 hc.free
      · use e.isLt
        rw [hc.envs, Function.update_self]
        simp [newEnv]
  case freeable =>
    intro e hlive
    obtain ⟨l', s', heq, -, henvs⟩ := hr.freed hlive
    use s', heq
    intro hlive'
    apply hlive'.2
    rw [henvs, Function.update_self]
  case again =>
    intro e id hmem hfree
    obtain ⟨ev₁, ev₂, hev⟩ := List.append_of_mem hmem
    obtain ⟨hlt, -, -⟩ := hn.freed ev₁ ev₂ e id hev
    have hNENV := hr.lt_NENV
    have hst : (s.envs e).envStatus = .ENV_FREE := by
      by_contra hst
      exact hfree ⟨by omega, hst⟩
    have hfl := (hr.env.mem_free e).mpr ⟨by omega, hst⟩
    obtain hfront | hrest := List.mem_append.mp hfl
    · apply hr.again hn hrun hfront
    · rw [List.mem_range'_1] at hrest
      omega
  case stale =>
    intro ev₁ ev₂ e id hev hnone checkperm
    obtain ⟨hlt, ⟨k, rfl⟩, hgave⟩ := hn.freed ev₁ ev₂ e id hev
    have hNENV := hr.lt_NENV
    have hpos := genId_pos (e := e) (by omega) k
    apply envid2env_none
    · intro h0
      rw [h0] at hpos
      cases hpos
    · rw [ENVX_genId (by omega)]
      by_cases hst : (s.envs e).envStatus = .ENV_FREE
      · left
        exact hst
      · right
        intro hid
        apply hnone e
        rw [← hid]
        apply hgave ⟨by omega, hst⟩

/-- An environment is created and freed, and its name is stale. -/
theorem IdRun.identified_once :
  ∃ id s, IdRun (bootAvail 2) [.freed 0 id, .gave 0 id] s
    ∧ Identified (bootAvail 2) [.freed 0 id, .gave 0 id] s
  := by
  have hboot := bootKernel_afterMemInit (n := 2) (by decide)
  obtain ⟨s0, hinit, ⟨envs, hs0⟩, hfree⟩ := envInit_ok (bootKernel 2)
  have hrun0 := IdRun.boot hboot hinit
  obtain ⟨l, hr0, hn0⟩ := boot_reused hboot hinit
  have hlist0 : s0.pageFreeList = some 71 := by rw [hs0]; rfl
  obtain ⟨rfl, -⟩ | ⟨e, p, l', fl', s1, type, hfl, hl, heq, hc, hmem, henv⟩ :=
    allocEnv_ok hr0 false 0
  · have hnone := hr0.mem.pageFreeList_eq_none.mpr rfl
    rw [hlist0] at hnone
    cases hnone
  have he : e.val = 0 := (List.cons.inj hfl).1.symm
  have hroom : s1.SomeFree := by
    refine ⟨1, by decide, ?_⟩
    rw [hc.envs, he, Function.update_of_ne (by decide)]
    apply (hfree 1 (by decide)).1
  have hlive : s1.Live e := by
    use e.isLt
    rw [hc.envs, Function.update_self]
    simp [newEnv]
  have hrun1 := hrun0.alloc heq hroom
  obtain ⟨s2, hfreed, -⟩ := hrun1.identified.freeable e hlive
  have hrun2 := hrun1.free hlive hfreed
  rw [he] at hrun2
  exact ⟨_, s2, hrun2, hrun2.identified⟩

end Runs

end Jos
