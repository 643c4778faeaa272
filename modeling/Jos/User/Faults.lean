import Jos.User.Family

/-!
# Writes and forks that are served

An environment that has its page faults handled may write to every page that it could write to when
it was created, whether it shares the page or not, and it may `fork`: as long as there is memory the
write and the `fork` return.  So it is with all the environments that descend from it.
-/

namespace Jos

namespace User

open Bytes Prog View

variable {l : Linked} {w w' : World} {f f' : Family} {c e va : Word} {X : Word → Prop}

/-! ### Page faults that are handled -/

/-- The environment `e` has its page faults handled. -/
structure Capable (l : Linked) (e : Word) (f : Family) : Prop where
  upcall : f.upcall e ≠ 0
  stack : ∃ m, f.world.entry e excStack = some m ∧ m.perm &&& PTE_W ≠ 0
  handler : ∀ x ∈ wordBytes l.handler l.pgfault, f.world.view e x.1 = some x.2

/-- The bytes of a word, where they are read. -/
theorem word_of_wordBytes {v : View} {a x : Word} (h : ∀ y ∈ wordBytes a x, v y.1 = some y.2) :
  v.word a = some x
  := by
  simp only [wordBytes, List.forall_mem_cons, List.not_mem_nil, false_implies, implies_true,
    and_true] at h
  obtain ⟨h0, h1, h2, h3⟩ := h
  rw [word_eq_some]
  exact ⟨_, _, _, _, h0, h1, h2, h3, (append_byteOf x).symm⟩

/-- An environment that handles its page faults goes on to do so. -/
theorem Capable.keeps (h : Capable l e f) (hup : f'.upcall e = f.upcall e)
    (hkeeps : Keeps e f.world f'.world)
    (hviews : ∀ x ∈ wordBytes l.handler l.pgfault, f'.world.view e x.1 = some x.2) :
  Capable l e f'
  := by
  obtain ⟨m, hm, hwr⟩ := h.stack
  have hne : PGNUM excStack ≠ PGNUM PFTEMP := by decide
  obtain ⟨m', hm', hmm⟩ := hkeeps.pages _ m hne hm
  constructor
  case upcall => exact hup ▸ h.upcall
  case stack => exact ⟨m', hm', hmm.stack rfl hwr⟩
  case handler => exact hviews

/-- The environment `e` may write to the addresses in `X`. -/
def May (X : Word → Prop) (e : Word) (w : World) : Prop :=
  ∀ va, X va → ∃ m, w.entry e va = some m ∧ m.Writable

theorem May.keeps (h : May X e w) (hX : ∀ va, X va → Ordinary va) (hkeeps : Keeps e w w') :
  May X e w'
  := by
  intro va hva
  obtain ⟨m, hm, hwr⟩ := h va hva
  obtain ⟨m', hm', hmm⟩ := hkeeps.pages va m (fun heq => (hX va hva).2 (Or.inl heq)) hm
  exact ⟨m', hm', hmm.writable hwr⟩

/-- There is memory for every page. -/
structure World.Plenty (w : World) : Prop where
  fate : ∀ k, isError (w.fate k) = false
  tables : ∀ k, isError (w.tables k) = false

theorem World.Plenty.later (h : w.Plenty) (hlater : Later w w') :
  w'.Plenty
  := by
  obtain ⟨n, hn⟩ := hlater.fate
  obtain ⟨t, ht⟩ := hlater.tables
  constructor
  case fate => exact fun k => hn k ▸ h.fate _
  case tables => exact fun k => ht k ▸ h.tables _

theorem and_PTE_W {perm : Word} (h : perm &&& PTE_W ≠ 0) :
  perm &&& PTE_W = PTE_W
  := by
  have hbit : PTE_W = BitVec.twoPow 32 1 := by decide
  rw [hbit] at h ⊢
  exact and_twoPow_of_ne h

/-- What is mapped for writing is written without a fault. -/
theorem translate_of_perm (h : w.Plain) {m : Mapped} (hm : w.entry e va = some m)
    (hperm : m.perm &&& PTE_W ≠ 0) :
  w.translate e (PTE_U ||| PTE_W) va = some (m.page * PGSIZE + PGOFF va)
  := by
  rw [translate_eq_some]
  refine ⟨m, hm, ?_, rfl⟩
  rw [BitVec.and_or_distrib_left, h.user e va m hm, and_PTE_W hperm]

/-- The handler returns if the page is copy-on-write and there is memory for another one. -/
theorem pgfault_returns (h : w.Plain) {err : Word} {m : Mapped} (herr : err &&& FEC_WR ≠ 0)
    (hva : va.toNat < UTOP) (htemp : PGNUM va ≠ PGNUM PFTEMP) (hm : w.entry w.self va = some m)
    (hcow : m.perm &&& PTE_COW ≠ 0) (hmem : isError (w.fate 0) = false) :
  ∃ w', pgfault va err w = .ok ((), w')
  := by
  obtain ⟨haligned, hnum, -⟩ := ROUNDDOWN_PAGE va
  have hkey : ∀ w1 : World, w1.key w.self = w.self := by
    intro w1
    rw [World.key, if_neg h.wf.self_ne]
  have hround : w.entry w.self (ROUNDDOWN va PAGE) = some m := by
    rw [← hm, World.entry, World.entry, hnum]
  have hflags : uvptFlags (ROUNDDOWN va PAGE) w = .ok (m.perm, w) := by
    rw [uvptFlags, get_bind, hround]
    rfl
  have hpage : UserPageAddr (ROUNDDOWN va PAGE) := by
    refine ⟨?_, haligned⟩
    rw [PGNUM_eq, PGNUM_eq] at hnum
    simp only [PGSIZE] at haligned
    omega
  have hperm : ProperPerm (PTE_P ||| PTE_U ||| PTE_W) := by decide
  obtain ⟨p, hp⟩ := Option.isSome_iff_exists.mp h.wf.running
  have halloc : sysPageAlloc w.self PFTEMP (PTE_P ||| PTE_U ||| PTE_W) w
      = .ok (0, w.asked.alloc w.self PFTEMP (PTE_P ||| PTE_U ||| PTE_W)) := by
    have hfind : w.find w.self = some p := by rw [World.find, hkey, hp]
    rw [sysPageAlloc_eq (by decide) hperm hfind, if_neg (Bool.eq_false_iff.mp hmem), hkey]
  obtain ⟨w2, hcopy, hout⟩ := copiedOut h hm htemp
  obtain ⟨p2, hp2⟩ := Option.isSome_iff_exists.mp hout.running
  have hfind2 : w2.find w.self = some p2 := by rw [World.find, hkey, hp2]
  have hentry2 : w2.entry (w2.key w.self) PFTEMP
      = some ⟨w.next, PTE_P ||| PTE_U ||| PTE_W⟩ := by rw [hkey, hout.temp]
  have hsome2 : w2.entry (w2.key w.self) (ROUNDDOWN va PAGE) = some m := by
    rw [hkey, hout.mapped _ (by rw [hnum]; exact htemp), hround]
  have htwo : ¬ ((PTE_P ||| PTE_U ||| PTE_W) &&& PTE_W ≠ 0 ∧ (PTE_P ||| PTE_U ||| PTE_W) &&& PTE_W = 0) :=
    fun hno => hno.1 hno.2
  have hmap := sysPageMap_eq (by decide) hpage hperm hfind2 hfind2 hentry2 htwo
  rw [hsome2, if_neg (by simp), hkey] at hmap
  obtain ⟨w3, hw3⟩ : ∃ w3, w3 = w2.askedTable.setEntry w.self (ROUNDDOWN va PAGE)
      (some ⟨w.next, PTE_P ||| PTE_U ||| PTE_W⟩) := ⟨_, rfl⟩
  have hrun3 : (w3.procs w.self).isSome := by
    rw [hw3, isSome_setEntry]
    exact hout.running
  obtain ⟨p3, hp3⟩ := Option.isSome_iff_exists.mp hrun3
  have hfind3 : w3.find w.self = some p3 := by rw [World.find, hkey, hp3]
  have htempPage : UserPageAddr PFTEMP := by decide
  have hunmap := sysPageUnmap_eq htempPage hfind3
  rw [hkey] at hunmap
  refine ⟨w3.setEntry w.self PFTEMP none, ?_⟩
  have hself : sysGetenvid w = .ok (w.self, w) := rfl
  rw [pgfault, if_neg herr, bind_of_eq hflags, if_neg hcow, bind_of_eq hself, bind_of_eq halloc,
    if_neg (by decide), bind_of_eq hcopy, bind_of_eq hmap, if_neg (by decide), ← hw3, bind_of_eq hunmap, if_neg (by decide)]
  rfl

/-- A page that was just copied may be written. -/
theorem Owned.translate (hown : Owned va w w') :
  ∃ pa, w'.translate w'.self (PTE_U ||| PTE_W) va = some pa
  := by
  obtain ⟨m, -, hsh⟩ := hown.sharing
  have hmaps : w'.sharing.maps (envPage w.self va) = some (w.next, true) := by
    rw [hsh]
    exact Sharing.own_maps_self
  rw [sharing_maps, Option.map_eq_some_iff] at hmaps
  obtain ⟨m', hm', hframe⟩ := hmaps
  have hperm : m'.perm &&& PTE_W ≠ 0 := of_decide_eq_true (congrArg Prod.snd hframe)
  rw [← hown.self] at hm'
  exact ⟨_, translate_of_perm hown.plain hm' hperm⟩

/-- What the program does in its environment leaves the upcalls alone. -/
theorem sys_of_eq {α : Type} {m : Prog World α} {a : α} (h : m f.world = .ok (a, w')) :
  sys m f = .ok (a, ⟨w', f.upcall⟩)
  := zoom_of_eq h

/-- The page faults of an environment that can handle them go to `pgfault`. -/
theorem pageFault_eq {err : Word} (h : f.world.Plain) (hcap : Capable l f.world.self f)
    (hserved : pgfault va err f.world = .ok ((), w')) :
  pageFault l va err f = .ok ((), ⟨w', f.upcall⟩)
  := by
  obtain ⟨m, hm, hperm⟩ := hcap.stack
  have hcond : ¬ (f.upcall f.world.self = 0
      ∨ (f.world.translate f.world.self (PTE_U ||| PTE_W) excStack).isNone) := by
    rw [translate_of_perm h hm hperm]
    simp only [Option.isNone_some, Bool.false_eq_true, or_false]
    exact hcap.upcall
  have hload : sys (load32 l.handler) f = .ok (l.pgfault, f) :=
    sys_of_eq (load32_eq (word_of_wordBytes hcap.handler))
  rw [pageFault, get_bind, if_neg hcond, bind_of_eq hload, if_pos rfl]
  exact sys_of_eq hserved

/-- A write that is no fault. -/
theorem write_direct (h : f.world.Plain) {m : Mapped} (hm : f.world.entry f.world.self va = some m)
    (hperm : m.perm &&& PTE_W ≠ 0) (b : Byte) :
  ∃ x, write l va b f = .ok ((), ⟨f.world.setMem x, f.upcall⟩)
  := by
  have htr := translate_of_perm h hm hperm
  refine ⟨write8 f.world.mem (m.page * PGSIZE + PGOFF va) b, ?_⟩
  rw [write, get_bind, htr, if_neg (by simp)]
  exact sys_of_eq (store_eq htr b)

/-- A write to a page that may be written, maybe after it was copied, returns as long as there is
memory. -/
theorem write_returns (h : f.world.Plain) (hcap : Capable l f.world.self f) {m : Mapped}
    (hva : Ordinary va) (hm : f.world.entry f.world.self va = some m) (hwr : m.Writable)
    (hmem : isError (f.world.fate 0) = false) (b : Byte) :
  ∃ f', write l va b f = .ok ((), f')
  := by
  by_cases hdirect : m.perm &&& PTE_W ≠ 0
  · obtain ⟨x, heq⟩ := write_direct h hm hdirect b
    exact ⟨_, heq⟩
  · -- the page is copied first
    have hcow := hwr.resolve_left hdirect
    have htr : f.world.translate f.world.self (PTE_U ||| PTE_W) va = none := by
      rw [World.translate, hm]
      simp only
      rw [if_neg]
      intro hall
      rw [BitVec.or_comm] at hall
      rw [and_of_and_or hall] at hdirect
      exact hdirect (by decide)
    have htemp : PGNUM va ≠ PGNUM PFTEMP := fun heq => hva.2 (Or.inl heq)
    have herr : (FEC_U ||| FEC_WR ||| FEC_PR) &&& FEC_WR ≠ 0 := by decide
    obtain ⟨w1, hserved⟩ := pgfault_returns h herr hva.1 htemp hm hcow hmem
    have hany : (pgfault va (FEC_U ||| FEC_WR ||| FEC_PR)).EndsOr (fun _ => True) f.world
        (fun _ => Owned va f.world) := pgfault_any (fun _ => trivial) h _ htemp
    have hown := hany.of_eq hserved
    obtain ⟨pa, hpa⟩ := hown.translate
    refine ⟨⟨w1.setMem (write8 w1.mem pa b), f.upcall⟩, ?_⟩
    rw [write, get_bind, htr, if_pos Option.isNone_none, hm, if_pos Option.isSome_some,
      bind_of_eq (pageFault_eq h hcap hserved)]
    exact sys_of_eq (store_eq hpa b)

/-! ### Many writes -/

/-- The running environment does not lend pages to itself. -/
def Away (L : EnvPage → EnvPage → Prop) (s : Word) : Prop :=
  ∀ va va', ¬ L (envPage s va) (envPage s va')

/-- What is written to the variable with the handler is the handler. -/
def Spares (l : Linked) (ws : List (Word × Byte)) : Prop :=
  ∀ x ∈ ws, ∀ y ∈ wordBytes l.handler l.pgfault, x.1 = y.1 → x.2 = y.2

/-- A write that leaves the handler alone. -/
theorem Capable.wrote {L : EnvPage → EnvPage → Prop} {b : Byte} (hl : l.Ordinary)
    (hL : Away L f.world.self) (hcap : Capable l f.world.self f) (hup : f'.upcall = f.upcall)
    (hwrote : Wrote L va b f.world f'.world)
    (hspare : ∀ y ∈ wordBytes l.handler l.pgfault, va = y.1 → b = y.2) :
  Capable l f.world.self f'
  := by
  apply hcap.keeps (congrFun hup _) hwrote.keeps
  intro y hy
  by_cases heq : va = y.1
  · rw [← heq, ← hspare y hy heq]
    exact hwrote.written
  · rw [hwrote.others _ _ (fun ht => (hl y hy).2 (Or.inl ht.2)) (fun hx => heq hx.2.symm)
      (fun hlent => hL _ _ hlent.1)]
    exact hcap.handler y hy

theorem writes_returns {L : EnvPage → EnvPage → Prop} {ws : List (Word × Byte)} (hl : l.Ordinary)
    (hX : ∀ va, X va → Ordinary va) (hL : Away L f.world.self) (h : f.world.Sound L)
    (hcap : Capable l f.world.self f) (hplenty : f.world.Plenty) (hmay : May X f.world.self f.world)
    (hws : ∀ x ∈ ws, X x.1) (hspare : Spares l ws) :
  ∃ f', writes l ws f = .ok ((), f') ∧ Capable l f.world.self f'
  := by
  induction ws generalizing f with
  | nil => exact ⟨f, rfl, hcap⟩
  | cons x ws ih =>
      have hx := hws x (List.mem_cons_self ..)
      have hord := hX _ hx
      obtain ⟨m, hm, hwr⟩ := hmay _ hx
      obtain ⟨f1, heq⟩ := write_returns h.toPlain hcap hord hm hwr (hplenty.fate 0) x.2
      obtain ⟨hup, hwrote⟩ := (write_any l h (fun ht => hord.2 (Or.inl ht)) x.2).of_eq heq
      have hself := hwrote.self
      have hcap1 := hcap.wrote hl hL hup hwrote (hspare x (List.mem_cons_self ..))
      have hmay1 := hmay.keeps hX hwrote.keeps
      rw [← hself] at hL hcap1 hmay1
      obtain ⟨f2, heq2, hcap2⟩ := ih hL hwrote.sound hcap1 (hplenty.later hwrote.later) hmay1
        (fun y hy => hws y (List.mem_cons_of_mem x hy))
        (fun y hy => hspare y (List.mem_cons_of_mem x hy))
      rw [hself] at hcap2
      refine ⟨f2, ?_, hcap2⟩
      rw [writes, bind_of_eq heq]
      exact heq2

/-! ### `fork` -/

section Loop

variable {n : Nat} {w0 : World} {f0 : Family} {L : EnvPage → EnvPage → Prop}

/-- From `f0` on the loop of `fork` gets what it needs. The addresses in `X` are those of its stack
frame. -/
structure Forkable (l : Linked) (X : Word → Prop) (f0 : Family) : Prop where
  linked : l.Ordinary
  frame : ∀ va, X va → Ordinary va
  spares : ∀ x ∈ wordBytes l.handler l.pgfault, ¬ X x.1
  capable : Capable l f0.world.self f0
  plenty : f0.world.Plenty
  may : May X f0.world.self f0.world
  temp : f0.world.entry f0.world.self PFTEMP = none

/-- While `fork` runs its environment handles page faults, and may write to its stack frame. -/
theorem Forkable.forked (hf : Forkable l X f0) (h : Forked L X c n f0.world f.world)
    (hc : c ≠ f0.world.self) (hup : f.upcall = f0.upcall) :
  Capable l f.world.self f ∧ f.world.Plenty ∧ May X f.world.self f.world
  := by
  rw [h.self]
  refine ⟨?_, hf.plenty.later h.later, hf.may.keeps hf.frame h.keeps⟩
  apply hf.capable.keeps (congrFun hup _) h.keeps
  intro x hx
  rw [h.others _ _ hc.symm (fun ht => (hf.linked x hx).2 (Or.inl ht.2)) (fun _ => hf.spares x hx)]
  exact hf.capable.handler x hx

/-- So its writes to the stack frame return. -/
theorem Forkable.writes_returns {ws : List (Word × Byte)} (hf : Forkable l X f0)
    (h : Forked L X c n f0.world f.world) (hL : Away L f0.world.self) (hc : c ≠ f0.world.self)
    (hup : f.upcall = f0.upcall) (hws : ∀ x ∈ ws, X x.1) :
  ∃ f', writes l ws f = .ok ((), f') ∧ f'.upcall = f.upcall ∧ Touched L X f.world f'.world
  := by
  obtain ⟨hcap, hplenty, hmay⟩ := hf.forked h hc hup
  have hspare : Spares l ws := fun x hx y hy heq => (hf.spares y hy (heq ▸ hws x hx)).elim
  obtain ⟨f', heq, -⟩ := User.writes_returns hf.linked hf.frame (h.self ▸ hL) h.sound hcap hplenty
    hmay hws hspare
  have hws' : ∀ x ∈ ws, X x.1 ∧ PGNUM x.1 ≠ PGNUM PFTEMP :=
    fun x hx => ⟨hws x hx, fun ht => (hf.frame _ (hws x hx)).2 (Or.inl ht)⟩
  exact ⟨f', heq, (writes_any l h.sound hws').of_eq heq⟩

/-- A page is mapped below `UTOP`. -/
theorem sysPageMap_returns {s e' perm : Word} {m : Mapped} (hs : s ≠ 0) (he' : e' ≠ 0)
    (hva : UserPageAddr va) (hperm : ProperPerm perm) (hro : perm &&& PTE_W = 0)
    (hm : w.entry s va = some m) (hrun : (w.procs e').isSome)
    (htables : isError (w.tables 0) = false) :
  sysPageMap s va e' va perm w = .ok (0, w.askedTable.setEntry e' va (some ⟨m.page, perm⟩))
  := by
  have hkey : w.key s = s ∧ w.key e' = e' := by
    rw [World.key, World.key, if_neg hs, if_neg he']
    exact ⟨rfl, rfl⟩
  obtain ⟨p, hp⟩ : ∃ p, w.find s = some p := by
    rw [World.find, hkey.1]
    cases hp : w.procs s with
    | some p => exact ⟨p, rfl⟩
    | none =>
        rw [World.entry, hp] at hm
        cases hm
  obtain ⟨p', hp'⟩ := Option.isSome_iff_exists.mp hrun
  have hfind' : w.find e' = some p' := by rw [World.find, hkey.2, hp']
  have hmap := sysPageMap_eq hva hva hperm hp hfind' (by rw [hkey.1]; exact hm)
    (fun hno => hno.1 hro)
  rw [hmap, if_neg (by simp [htables]), hkey.2]

theorem userPageAddr_pageVa (hn : n < UTOP / PGSIZE) :
  UserPageAddr (pageVa n)
  := by
  have htop : UTOP = 4005560320 := rfl
  have htoNat : (pageVa n).toNat = n * 4096 := by
    rw [pageVa, BitVec.toNat_ofNat]
    simp only [PGSIZE, htop] at hn ⊢
    omega
  constructor
  · rw [htoNat]
    simp only [PGSIZE, htop] at hn ⊢
    omega
  · rw [htoNat]
    simp only [PGSIZE]
    omega

/-- `duppage` returns. -/
theorem duppage_returns {between : List (Word × Byte)} {m : Mapped} (hf : Forkable l X f0)
    (h : Forked Nothing X c n f0.world f.world) (hc0 : c ≠ 0) (hc : c ≠ f0.world.self)
    (hn : n < UTOP / PGSIZE) (hexc : n ≠ PGNUM excStack) (hup : f.upcall = f0.upcall)
    (hbetween : ∀ x ∈ between, X x.1) (hm : f.world.entry f0.world.self (pageVa n) = some m) :
  ∃ f', duppage l c n between f = .ok ((), f')
  := by
  have hself := h.self
  have hs0 : f0.world.self ≠ 0 := hself ▸ h.sound.wf.self_ne
  have hva := userPageAddr_pageVa hn
  have hnum := PGNUM_pageVa hn
  have hflags : sys (uvptFlags (pageVa n)) f = .ok (m.perm, f) := by
    apply sys_of_eq
    rw [uvptFlags, get_bind, hself, hm]
    rfl
  have hgetenvid : sys sysGetenvid f = .ok (f0.world.self, f) := by
    rw [← hself]
    rfl
  have hshared : ProperPerm (PTE_COW ||| PTE_P ||| PTE_U) := by decide
  have hplain : ProperPerm (PTE_P ||| PTE_U) := by decide
  have hnottemp : PGNUM (pageVa n) ≠ PGNUM PFTEMP := by
    intro heq
    have hnone : f0.world.entry f0.world.self (pageVa n) = none := by
      rw [← hf.temp, World.entry, World.entry, heq]
    rw [h.keeps.temp _ heq hnone] at hm
    cases hm
  have htables := (hf.plenty.later h.later).tables 0
  rw [duppage, bind_of_eq hflags]
  by_cases hwr : m.Writable
  · -- the page is shared, and the handler may run before it is protected
    have hbits : m.perm &&& PTE_W ≠ 0 ∨ m.perm &&& PTE_COW ≠ 0 := hwr
    have hlend := h.lend hc hnum hexc hm
    have hmap := sysPageMap_returns hs0 hc0 hva hshared (by decide) hm h.child htables
    obtain ⟨f1, hf1⟩ : ∃ f1 : Family, f1 = ⟨f.world.askedTable.setEntry c (pageVa n)
        (some ⟨m.page, PTE_COW ||| PTE_P ||| PTE_U⟩), f.upcall⟩ := ⟨_, rfl⟩
    have hlend1 : Forked (Sharing.Lent (envPage f0.world.self (pageVa n)) (envPage c (pageVa n))) X c
        (n + 1) f0.world f1.world := hf1 ▸ hlend
    have haway : Away (Sharing.Lent (envPage f0.world.self (pageVa n)) (envPage c (pageVa n)))
        f0.world.self := fun va va' hlent => hc (lends_lent _ _ _ _ _ _ hlent).1.symm
    have hup1 : f1.upcall = f0.upcall := by
      rw [hf1]
      exact hup
    obtain ⟨f2, heq2, -, htouched⟩ := hf.writes_returns hlend1 haway hc hup1 hbetween
    have hforked := hlend1.touch hc (lends_lent _ _ _) htouched
    obtain ⟨m2, hm2⟩ : ∃ m2, f2.world.entry f0.world.self (pageVa n) = some m2 := by
      rw [← Option.isSome_iff_exists, hforked.mapped _ hnottemp, ← h.mapped _ hnottemp, hm]
      rfl
    have hrun2 : (f2.world.procs f0.world.self).isSome := hforked.self ▸ hforked.sound.wf.running
    have hmap2 := sysPageMap_returns hs0 hs0 hva hshared (by decide) hm2 hrun2
      ((hf.plenty.later hforked.later).tables 0)
    refine ⟨⟨f2.world.askedTable.setEntry f0.world.self (pageVa n)
      (some ⟨m2.page, PTE_COW ||| PTE_P ||| PTE_U⟩), f2.upcall⟩, ?_⟩
    rw [if_pos hbits, bind_of_eq hgetenvid, bind_of_eq (sys_of_eq hmap), if_neg (by decide),
      ← hf1, bind_of_eq heq2, bind_of_eq (sys_of_eq hmap2), if_neg (by decide)]
    rfl
  · have hbits : ¬ (m.perm &&& PTE_W ≠ 0 ∨ m.perm &&& PTE_COW ≠ 0) := hwr
    have hmap := sysPageMap_returns hs0 hc0 hva hplain (by decide) hm h.child htables
    refine ⟨⟨f.world.askedTable.setEntry c (pageVa n) (some ⟨m.page, PTE_P ||| PTE_U⟩), f.upcall⟩, ?_⟩
    rw [if_neg hbits, bind_of_eq hgetenvid, bind_of_eq (sys_of_eq hmap), if_neg (by decide)]
    rfl

/-- The body of the loop of `fork` returns. -/
theorem forkPage_returns {frame : Frame} (hf : Forkable l X f0)
    (h : Forked Nothing X c n f0.world f.world) (hc0 : c ≠ 0) (hc : c ≠ f0.world.self)
    (hn : n < UTOP / PGSIZE) (hup : f.upcall = f0.upcall) (hframe : frame.Within X) :
  ∃ f', forkPage l c frame n f = .ok ((), f')
  := by
  obtain ⟨hbetween, hafter⟩ := hframe n
  have haway : Away Nothing f0.world.self := fun _ _ hno => hno
  have hmapped : sys (mapped (pageVa n)) f
      = .ok ((f.world.entry f0.world.self (pageVa n)).isSome, f) := by
    rw [← h.self]
    rfl
  rw [forkPage, bind_of_eq hmapped]
  by_cases hcond : (f.world.entry f0.world.self (pageVa n)).isSome ∧ n * PGSIZE ≠ UXSTACKTOP - PGSIZE
  · obtain ⟨m, hm⟩ := Option.isSome_iff_exists.mp hcond.1
    have hexc : n ≠ PGNUM excStack := by
      rintro rfl
      exact hcond.2 (by decide)
    obtain ⟨f1, heq⟩ := duppage_returns hf h hc0 hc hn hexc hup hbetween hm
    have hws : ∀ x ∈ frame.between n, X x.1 ∧ PGNUM x.1 ≠ PGNUM PFTEMP :=
      fun x hx => ⟨hbetween x hx, fun ht => (hf.frame _ (hbetween x hx)).2 (Or.inl ht)⟩
    obtain ⟨hup1, hforked⟩ := (duppage_any l h hc0 hc hn hexc hws).of_eq heq
    obtain ⟨f2, heq2, -⟩ := hf.writes_returns hforked haway hc (hup1.trans hup) hafter
    refine ⟨f2, ?_⟩
    rw [if_pos hcond, bind_of_eq heq]
    exact heq2
  · obtain ⟨f2, heq2, -⟩ := hf.writes_returns h haway hc hup hafter
    refine ⟨f2, ?_⟩
    rw [if_neg hcond]
    exact heq2

/-- The loop of `fork` returns. -/
theorem forkLoop_returns {frame : Frame} (hf : Forkable l X f0)
    (h : Forked Nothing X c 0 f0.world f0.world) (hc0 : c ≠ 0) (hc : c ≠ f0.world.self)
    (hframe : frame.Within X) :
  ∃ f', Prog.forUp 0 (UTOP / PGSIZE) (forkPage l c frame) f0 = .ok ((), f') ∧ f'.upcall = f0.upcall
    ∧ Forked Nothing X c (UTOP / PGSIZE) f0.world f'.world
  := by
  have hnottemp : ∀ x, X x → PGNUM x ≠ PGNUM PFTEMP := fun x hx ht => (hf.frame x hx).2 (Or.inl ht)
  have hloop : (Prog.forUp 0 (UTOP / PGSIZE) (forkPage l c frame)).EndsOr (fun _ => False) f0
      (fun _ f' => f'.upcall = f0.upcall ∧ Forked Nothing X c (0 + UTOP / PGSIZE) f0.world f'.world) := by
    apply endsOr_forUp (fun n (f' : Family) => f'.upcall = f0.upcall
      ∧ Forked Nothing X c n f0.world f'.world)
    · rintro n f - hn ⟨hup, hforked⟩
      have hn' : n < UTOP / PGSIZE := by omega
      obtain ⟨hbetween, hafter⟩ := hframe n
      obtain ⟨f', heq⟩ := forkPage_returns hf hforked hc0 hc hn' hup hframe
      have hpage := (forkPage_any l hforked hc0 hc hn'
        (fun x hx => ⟨hbetween x hx, hnottemp _ (hbetween x hx)⟩)
        (fun x hx => ⟨hafter x hx, hnottemp _ (hafter x hx)⟩)).of_eq heq
      rw [endsOr_of_eq heq]
      exact ⟨hpage.1.trans hup, hpage.2⟩
    · exact ⟨rfl, h⟩
  obtain ⟨_, f', heq, hend⟩ := hloop.returns
  rw [Nat.zero_add] at hend
  exact ⟨f', heq, hend⟩

end Loop

/-- A page is handed out below `UTOP`. -/
theorem sysPageAlloc_returns {e perm : Word} (he0 : e ≠ 0) (hva : UserPageAddr va)
    (hperm : ProperPerm perm) (hrun : (w.procs e).isSome) (hmem : isError (w.fate 0) = false) :
  sysPageAlloc e va perm w = .ok (0, w.asked.alloc e va perm)
  := by
  have hkey : w.key e = e := by rw [World.key, if_neg he0]
  obtain ⟨p, hp⟩ := Option.isSome_iff_exists.mp hrun
  have hfind : w.find e = some p := by rw [World.find, hkey, hp]
  rw [sysPageAlloc_eq hva hperm hfind, if_neg (Bool.eq_false_iff.mp hmem), hkey]

theorem sysEnvSetPgfaultUpcall_returns {e func : Word} (he0 : e ≠ 0)
    (hrun : (f.world.procs e).isSome) (hfunc : func ≠ 0) :
  sysEnvSetPgfaultUpcall e func f = .ok (0, ⟨f.world, Function.update f.upcall e func⟩)
  := by
  have hkey : f.world.key e = e := by rw [World.key, if_neg he0]
  have hfind : ¬ (f.world.find e).isNone := by
    intro hnone
    rw [World.find, hkey, Option.isNone_iff_eq_none] at hnone
    rw [hnone] at hrun
    cases hrun
  rw [sysEnvSetPgfaultUpcall, get_bind, if_neg hfind, if_neg hfunc, set_bind, hkey]
  rfl

/-- The new environment can be made ready. -/
theorem forkFinish_returns (hc0 : c ≠ 0) (hrun : (f.world.procs c).isSome)
    (hmem : isError (f.world.fate 0) = false) (hup : f.upcall f.world.self ≠ 0) :
  ∃ f', forkFinish c f = .ok ((), f')
  := by
  have hva : UserPageAddr excStack := by decide
  have hperm : ProperPerm (PTE_P ||| PTE_W ||| PTE_U) := by decide
  have halloc := sysPageAlloc_returns hc0 hva hperm hrun hmem
  obtain ⟨w1, hw1⟩ : ∃ w1, w1 = f.world.asked.alloc c excStack (PTE_P ||| PTE_W ||| PTE_U) := ⟨_, rfl⟩
  rw [← hw1] at halloc
  have hrun1 : (w1.procs c).isSome := by
    have hset := @isSome_setEntry f.world.asked c excStack c
      (some ⟨f.world.next, PTE_P ||| PTE_W ||| PTE_U⟩)
    rw [hw1]
    exact hset.trans hrun
  have hself1 : w1.self = f.world.self := by
    rw [hw1]
    rfl
  have hset : sysEnvSetPgfaultUpcall c (f.upcall w1.self) ⟨w1, f.upcall⟩
      = .ok (0, ⟨w1, Function.update f.upcall c (f.upcall w1.self)⟩) :=
    sysEnvSetPgfaultUpcall_returns hc0 hrun1 (by rw [hself1]; exact hup)
  obtain ⟨p, hp⟩ := Option.isSome_iff_exists.mp hrun1
  have hkey : w1.key c = c := by rw [World.key, if_neg hc0]
  have hstatus : sysEnvSetStatus c 2 w1
      = .ok (0, w1.create c { p with status := .ENV_RUNNABLE }) := by
    have hfind : w1.find c = some p := by rw [World.find, hkey, hp]
    have hrunnable : statusOfWord 2 = some .ENV_RUNNABLE := rfl
    rw [sysEnvSetStatus, hrunnable]
    simp only
    rw [get_bind, hfind]
    simp only
    rw [set_bind, hkey]
    rfl
  refine ⟨⟨w1.create c { p with status := .ENV_RUNNABLE },
    Function.update f.upcall c (f.upcall w1.self)⟩, ?_⟩
  rw [forkFinish, bind_of_eq (sys_of_eq halloc), if_neg (by decide), get_bind, bind_of_eq hset,
    if_neg (by decide), bind_of_eq (sys_of_eq hstatus), if_neg (by decide)]
  rfl

/-- The new environment gets a number that no environment has. -/
theorem exofork_returns (hmem : isError (f.world.fate 0) = false) (hne : f.world.fate 0 ≠ 0)
    (hnew : f.world.procs (f.world.fate 0) = none) :
  ∃ f', exofork f = .ok (f.world.fate 0, f')
  := by
  have hno : ¬ (f.world.fate 0 = 0 ∨ (f.world.asked.procs (f.world.fate 0)).isSome) := by
    have hprocs : f.world.asked.procs (f.world.fate 0) = none := hnew
    simp only [hne, hprocs, Option.isSome_none, Bool.false_eq_true, or_self, not_false_eq_true]
  have hcall : ∃ p, sysExofork f.world
      = .ok (f.world.fate 0, f.world.asked.create (f.world.fate 0) p) := by
    obtain ⟨tf, htf⟩ : ∃ tf, tf = ((f.world.asked.procs f.world.asked.self).getD {}).tf := ⟨_, rfl⟩
    refine ⟨{ tf := { tf with tfRegs := { tf.tfRegs with regEax := 0 } } }, ?_⟩
    rw [htf, sysExofork, request, bind_assoc, get_bind, bind_assoc, set_bind, pure_bind, get_bind,
      if_neg (Bool.eq_false_iff.mp hmem), if_neg hno]
    rfl
  obtain ⟨p, hcall⟩ := hcall
  refine ⟨⟨f.world.asked.create (f.world.fate 0) p, Function.update f.upcall (f.world.fate 0) 0⟩, ?_⟩
  rw [exofork, bind_of_eq (sys_of_eq hcall), if_neg (Bool.eq_false_iff.mp hmem)]
  rfl

/-! ### Registering the handler -/

theorem mem_wordBytes {a x : Word} {y : Word × Byte} :
  y ∈ wordBytes a x ↔ ∃ i < 4, y = (off a i, byteOf x i)
  := by
  simp only [wordBytes, List.mem_cons, List.not_mem_nil, or_false]
  constructor
  · rintro (rfl | rfl | rfl | rfl)
    · exact ⟨0, by omega, by rw [off_zero]⟩
    · exact ⟨1, by omega, rfl⟩
    · exact ⟨2, by omega, rfl⟩
    · exact ⟨3, by omega, rfl⟩
  · rintro ⟨i, hi, rfl⟩
    obtain rfl | rfl | rfl | rfl : i = 0 ∨ i = 1 ∨ i = 2 ∨ i = 3 := by omega
    · left
      rw [off_zero]
    · simp
    · simp
    · simp

/-- The bytes of a word have different addresses. -/
theorem spares_handler :
  Spares l (wordBytes l.handler l.pgfault)
  := by
  intro x hx y hy heq
  obtain ⟨i, hi, rfl⟩ := mem_wordBytes.mp hx
  obtain ⟨j, hj, rfl⟩ := mem_wordBytes.mp hy
  have htoNat := congrArg BitVec.toNat heq
  simp only [off_toNat] at htoNat
  have hij : i = j := by omega
  rw [hij]

/-- What was written is there, if it was not written over. -/
theorem puts_of_mem {v : View} {ws : List (Word × Byte)} {y : Word × Byte}
    (h : ∀ x ∈ ws, x.1 = y.1 → x.2 = y.2) (hy : y ∈ ws) :
  puts v ws y.1 = some y.2
  := by
  induction ws generalizing v with
  | nil => cases hy
  | cons x ws ih =>
      by_cases hws : y ∈ ws
      · exact ih (fun z hz => h z (List.mem_cons_of_mem x hz)) hws
      · obtain rfl : y = x := (List.mem_cons.mp hy).resolve_right hws
        rw [puts, puts_of_notMem, put_self]
        intro z hz heq
        apply hws
        rw [show y = z from Prod.ext heq (h z (List.mem_cons_of_mem y hz) heq.symm).symm]
        exact hz

/-- Writes that are no faults. -/
theorem writes_direct {ws : List (Word × Byte)} (h : f.world.Plain)
    (hws : ∀ x ∈ ws, ∃ m, f.world.entry f.world.self x.1 = some m ∧ m.perm &&& PTE_W ≠ 0) :
  ∃ x, writes l ws f = .ok ((), ⟨f.world.setMem x, f.upcall⟩)
  := by
  induction ws generalizing f with
  | nil => exact ⟨f.world.mem, rfl⟩
  | cons y ws ih =>
      obtain ⟨m, hm, hperm⟩ := hws y (List.mem_cons_self ..)
      obtain ⟨x, heq⟩ := write_direct h hm hperm y.2
      obtain ⟨x', heq'⟩ := ih (f := ⟨f.world.setMem x, f.upcall⟩) (h.setMem x)
        (fun z hz => hws z (List.mem_cons_of_mem y hz))
      refine ⟨x', ?_⟩
      rw [writes, bind_of_eq heq, heq']
      rfl

/-- Where the variable with the handler is. -/
def Linked.Variable (l : Linked) (va : Word) : Prop :=
  ∃ x ∈ wordBytes l.handler l.pgfault, x.1 = va

/-- The running environment has its page faults handled, or can have them handled for the first
time. -/
inductive Prepares (l : Linked) (f : Family) : Prop where
  | again (hcap : Capable l f.world.self f) (hmay : May l.Variable f.world.self f.world)
      (hne : l.pgfault ≠ 0)
  | first (hzero : (f.world.view f.world.self).word l.handler = some 0)
      (hdirect : ∀ x ∈ wordBytes l.handler l.pgfault,
        ∃ m, f.world.entry f.world.self x.1 = some m ∧ m.perm &&& PTE_W ≠ 0)
      (hne : l.upcall ≠ 0)

/-- The handler can be registered. -/
theorem setPgfaultHandler_returns (hl : l.Ordinary) (h : f.world.Sound Nothing)
    (hprep : Prepares l f) (hplenty : f.world.Plenty) :
  ∃ f', setPgfaultHandler l f = .ok ((), f') ∧ Capable l f.world.self f'
  := by
  cases hprep with
  | again hcap hmay hne =>
      have hload : sys (load32 l.handler) f = .ok (l.pgfault, f) :=
        sys_of_eq (load32_eq (word_of_wordBytes hcap.handler))
      have hord : ∀ va, l.Variable va → Ordinary va := by
        rintro va ⟨x, hx, rfl⟩
        exact hl x hx
      have haway : Away Nothing f.world.self := fun _ _ hno => hno
      obtain ⟨f', heq, hcap'⟩ := writes_returns hl hord haway h hcap hplenty hmay
        (fun x hx => ⟨x, hx, rfl⟩) spares_handler
      refine ⟨f', ?_, hcap'⟩
      rw [setPgfaultHandler, bind_of_eq hload, if_neg hne]
      exact heq
  | first hzero hdirect hne =>
      have hs0 := h.wf.self_ne
      have hload : sys (load32 l.handler) f = .ok (0, f) := sys_of_eq (load32_eq hzero)
      have hperm : ProperPerm (PTE_U ||| PTE_P ||| PTE_W) := by decide
      have huser : (PTE_U ||| PTE_P ||| PTE_W) &&& PTE_U = PTE_U := by decide
      have hpage := sysPageAlloc_returns hs0 (show UserPageAddr excStack by decide) hperm
        h.wf.running (hplenty.fate 0)
      have halloc : Alloced f.world.self excStack (PTE_U ||| PTE_P ||| PTE_W) f.world _ :=
        alloced h.toPlain h.wf.running huser
      obtain ⟨w1, hw1⟩ : ∃ w1, w1 = f.world.asked.alloc f.world.self excStack
          (PTE_U ||| PTE_P ||| PTE_W) := ⟨_, rfl⟩
      rw [← hw1] at hpage halloc
      obtain ⟨f1, hf1⟩ : ∃ f1 : Family, f1 = ⟨w1, Function.update f.upcall f.world.self l.upcall⟩ :=
        ⟨_, rfl⟩
      have hset : sysEnvSetPgfaultUpcall f.world.self l.upcall ⟨w1, f.upcall⟩ = .ok (0, f1) := by
        rw [hf1]
        exact sysEnvSetPgfaultUpcall_returns hs0 halloc.running hne
      have hworld1 : f1.world = w1 := by rw [hf1]
      rw [← hworld1] at halloc
      have hself1 := halloc.self
      have hdirect1 : ∀ x ∈ wordBytes l.handler l.pgfault,
          ∃ m, f1.world.entry f1.world.self x.1 = some m ∧ m.perm &&& PTE_W ≠ 0 := by
        intro x hx
        rw [hself1, halloc.entries _ _ (fun hexc => (hl x hx).2 (Or.inr hexc.2))]
        exact hdirect x hx
      obtain ⟨x, heq⟩ := writes_direct halloc.plain hdirect1
      obtain ⟨-, hstored⟩ :=
        (writes_stored l ⟨halloc.plain, halloc.apart h.apart⟩ hl.not_temp).of_eq heq
      have hmine := hstored.mine
      rw [hself1] at hmine
      have hgetenvid : sys sysGetenvid f = .ok (f.world.self, f) := rfl
      refine ⟨⟨f1.world.setMem x, f1.upcall⟩, ?_, ?_⟩
      · rw [setPgfaultHandler, bind_of_eq hload, if_pos rfl, bind_of_eq hgetenvid,
          bind_of_eq (sys_of_eq hpage), if_neg (by decide), bind_of_eq hset, if_neg (by decide)]
        exact heq
      · constructor
        case upcall =>
          have hup : f1.upcall f.world.self = l.upcall := by
            rw [hf1]
            exact Function.update_self ..
          exact hup.symm ▸ hne
        case stack =>
          have hbit : (PTE_U ||| PTE_P ||| PTE_W) &&& PTE_W ≠ 0 := by decide
          exact ⟨_, halloc.entry excStack rfl, hbit⟩
        case handler =>
          intro y hy
          refine (hmine _ (hl.not_temp y hy)).trans ?_
          exact puts_of_mem (fun z hz => spares_handler z hz y hy) hy

/-! ### All of `fork` -/

/-- While there is memory, and numbers of environments, `fork` creates a copy of the environment that
handles its page faults, as the environment itself does. -/
theorem fork_returns {frame : Frame} (hl : l.Ordinary) (h : f.world.Sound Nothing)
    (hprep : Prepares l f) (hplenty : f.world.Plenty)
    (hnew : ∀ k, f.world.fate k ≠ 0 ∧ f.world.procs (f.world.fate k) = none)
    (hX : ∀ va, X va → Ordinary va) (hspare : ∀ x ∈ wordBytes l.handler l.pgfault, ¬ X x.1)
    (hmay : May X f.world.self f.world) (htemp : f.world.entry f.world.self PFTEMP = none)
    (hframe : frame.Within X) :
  ∃ c f', fork l frame f = .ok (c, f') ∧ Capable l c f' ∧ Capable l f.world.self f'
  := by
  obtain ⟨f1, heq1, hcap1⟩ := setPgfaultHandler_returns hl h hprep hplenty
  have hp := (setPgfaultHandler_any l h hl.not_temp).of_eq heq1
  have hplenty1 := hplenty.later hp.later
  -- the number of the new environment
  obtain ⟨k, hk⟩ := hp.later.fate
  have hfate : f1.world.fate 0 = f.world.fate (0 + k) := hk 0
  obtain ⟨hne, hnone⟩ := hnew (0 + k)
  have hnone1 : f1.world.procs (f1.world.fate 0) = none := by
    rw [hfate, hp.procs, hnone]
    intro heq
    have hrun := h.wf.running
    rw [← heq, hnone] at hrun
    cases hrun
  obtain ⟨f2, heq2⟩ := exofork_returns (hplenty1.fate 0) (hfate ▸ hne) hnone1
  have hc2 := exofork_any.of_eq heq2 (hplenty1.fate 0)
  obtain ⟨c, hc⟩ : ∃ c, c = f1.world.fate 0 := ⟨_, rfl⟩
  rw [← hc] at heq2 hc2
  have hself2 : f2.world.self = f.world.self := hc2.self.trans hp.self
  have hcself := hc2.ne_self hp.sound.wf
  -- the loop
  have hcap2 : Capable l f2.world.self f2 := by
    rw [hself2]
    have hup : f2.upcall f.world.self = f1.upcall f.world.self := by
      rw [hc2.upcalls, Function.update_of_ne]
      exact fun heq => hcself (hself2.trans heq).symm
    apply hcap1.keeps hup (Keeps.of_entry (fun va => congrFun (congrFun hc2.entry _) va))
    intro x hx
    rw [hc2.views]
    exact hcap1.handler x hx
  have hkeeps2 : Keeps f2.world.self f.world f2.world := by
    rw [hself2]
    exact hp.keeps.trans (Keeps.of_entry (fun va => congrFun (congrFun hc2.entry _) va))
  have hforkable : Forkable l X f2 := by
    constructor
    case linked => exact hl
    case frame => exact hX
    case spares => exact hspare
    case capable => exact hcap2
    case plenty => exact hplenty1.later hc2.later
    case may => exact (hself2 ▸ hmay).keeps hX hkeeps2
    case temp => exact hkeeps2.temp PFTEMP rfl (hself2 ▸ htemp)
  obtain ⟨f3, heq3, hup3, hforked⟩ :=
    forkLoop_returns hforkable (hc2.forked (hc2.sound hp.sound)) hc2.ne_zero hcself hframe
  obtain ⟨hcap3, hplenty3, -⟩ := hforkable.forked hforked hcself hup3
  -- the new environment runs
  obtain ⟨f4, heq4⟩ := forkFinish_returns hc2.ne_zero hforked.child (hplenty3.fate 0) hcap3.upcall
  have hfin := (forkFinish_any hforked.sound hc2.ne_zero).of_eq heq4
  have hself3 : f3.world.self = f.world.self := hforked.self.trans hself2
  have hcf : c ≠ f.world.self := hself2 ▸ hcself
  refine ⟨c, f4, ?_, ?_, ?_⟩
  · rw [fork, bind_of_eq heq1, bind_of_eq heq2, if_neg (Bool.eq_false_iff.mp (hc ▸ hplenty1.fate 0)),
      bind_of_eq heq3, bind_of_eq heq4]
    rfl
  · constructor
    case upcall =>
      rw [hfin.upcalls, Function.update_self]
      exact hfin.upcall
    case stack =>
      have hbit : (PTE_P ||| PTE_W ||| PTE_U) &&& PTE_W ≠ 0 := by decide
      exact ⟨_, (hfin.stack excStack rfl).1, hbit⟩
    case handler =>
      intro x hx
      obtain ⟨hlt, hun⟩ := hl x hx
      rw [hfin.views _ _ (fun hexc => hun (Or.inr hexc.2)),
        (hforked.copied _ (PGNUM_lt_UTOP hlt) hun).2 (hspare x hx)]
      exact hcap2.handler x hx
  · rw [← hself3]
    have hup : f4.upcall f3.world.self = f3.upcall f3.world.self := by
      rw [hfin.upcalls, Function.update_of_ne]
      rw [hself3]
      exact hcf.symm
    have hother : ∀ va, ¬ (f3.world.self = c ∧ PGNUM va = PGNUM excStack) :=
      fun va hexc => hcf (hexc.1.symm.trans hself3)
    apply hcap3.keeps hup (Keeps.of_entry (fun va => hfin.entries _ _ (hother va)))
    intro x hx
    rw [hfin.views _ _ (hother _)]
    exact hcap3.handler x hx

end User

end Jos
