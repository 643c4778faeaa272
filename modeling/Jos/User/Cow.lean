import Jos.Lib.Sharing
import Jos.User.Fork

/-!
# Copying a page when it is written to

A page that may be written is mapped once, unless `duppage` is just lending it to the new
environment.  As long as this is so, the handler `pgfault` and the write it was called for change
nothing but the byte that is written, whatever environments see the page.
-/

namespace Jos

namespace User

open Bytes Prog View

/-! ### Mappings and frames -/

/-- What a mapping is of: its page, and whether that may be written. -/
def Mapped.frame (m : Mapped) : Nat × Bool :=
  (m.page, decide (m.perm &&& PTE_W ≠ 0))

/-- A page in the address space of an environment. -/
abbrev EnvPage := Word × Fin (2 ^ 20)

theorem PGNUM_lt (va : Word) :
  PGNUM va < 2 ^ 20
  := by
  have hva := va.isLt
  rw [PGNUM_eq]
  omega

/-- The page of the address `va` in the environment `e`. -/
def envPage (e va : Word) : EnvPage :=
  (e, ⟨PGNUM va, PGNUM_lt va⟩)

theorem envPage_eq {e e' va va' : Word} :
  envPage e va = envPage e' va' ↔ e = e' ∧ PGNUM va = PGNUM va'
  := by
  rw [envPage, envPage, Prod.mk.injEq, Fin.mk.injEq]

/-- Every page has an address. -/
theorem exists_envPage (a : EnvPage) :
  ∃ va, envPage a.1 va = a
  := by
  have ha := a.2.isLt
  use BitVec.ofNat 32 (a.2 * PGSIZE)
  apply Prod.ext
  · rfl
  · apply Fin.ext
    change PGNUM _ = a.2.val
    rw [PGNUM_eq, BitVec.toNat_ofNat]
    simp only [PGSIZE]
    omega

/-- The pages that the environments share. -/
def World.sharing (w : World) : Sharing EnvPage Nat (Fin PGSIZE → Byte) where
  maps a := ((w.procs a.1).bind (fun p => p.maps a.2)).map Mapped.frame
  mem p := fun o => w.mem (p * PGSIZE + o)

variable {w w' : World} {e va : Word}

theorem sharing_maps (w : World) (e va : Word) :
  w.sharing.maps (envPage e va) = (w.entry e va).map Mapped.frame
  := rfl

@[simp]
theorem sharing_asked :
  w.asked.sharing = w.sharing
  := rfl

@[simp]
theorem sharing_askedTable :
  w.askedTable.sharing = w.sharing
  := rfl

theorem sharing_setEntry (he : (w.procs e).isSome) (m : Option Mapped) :
  (w.setEntry e va m).sharing = w.sharing.map (envPage e va) (m.map Mapped.frame)
  := by
  obtain ⟨p, hp⟩ := Option.isSome_iff_exists.mp he
  apply Sharing.ext
  · funext a
    obtain ⟨va', ha⟩ := exists_envPage a
    obtain ⟨e', pn⟩ := a
    by_cases heq : (e', pn) = envPage e va
    · rw [heq, Sharing.map_maps_self]
      simp only [World.sharing, envPage, procs_setEntry, hp, Option.map_some, Option.bind_some,
        Function.update_self]
    · rw [Sharing.map_maps_of_ne heq]
      rw [← ha, envPage_eq] at heq
      rw [← ha, sharing_maps, sharing_maps, entry_setEntry_of_ne]
      exact fun he' hnum => heq ⟨he', hnum⟩
  · rfl

/-- A byte is written to a page. -/
theorem sharing_write8 (p : Nat) (o : Fin PGSIZE) (b : Byte) :
  (w.setMem (write8 w.mem (p * PGSIZE + o) b)).sharing
    = w.sharing.write p (Function.update (w.sharing.mem p) o b)
  := by
  apply Sharing.ext
  · rfl
  · funext q o'
    have ho := o.isLt
    have ho' := o'.isLt
    change write8 w.mem (p * PGSIZE + o) b (q * PGSIZE + o') = _
    rw [write8]
    by_cases hq : q = p
    · subst hq
      rw [Sharing.write_mem_self]
      by_cases heq : o' = o
      · subst heq
        rw [if_pos rfl, Function.update_self]
      · have hne : ¬ q * PGSIZE + o' = q * PGSIZE + o := by
          intro h
          exact heq (Fin.ext (by omega))
        rw [if_neg hne, Function.update_of_ne heq]
        rfl
    · rw [Sharing.write_mem_of_ne hq, if_neg]
      · rfl
      · simp only [PGSIZE] at ho ho' ⊢
        omega

/-- All of a page is written, and nothing else. -/
theorem sharing_page {m : Memory} {p : Nat} {x : Fin PGSIZE → Byte}
    (hp : ∀ o : Fin PGSIZE, m (p * PGSIZE + o) = x o) (hm : SameBut p 0 PGSIZE w.mem m) :
  (w.setMem m).sharing = w.sharing.write p x
  := by
  apply Sharing.ext
  · rfl
  · funext q o
    have ho := o.isLt
    by_cases hq : q = p
    · subst hq
      rw [Sharing.write_mem_self]
      apply hp
    · rw [Sharing.write_mem_of_ne hq]
      apply hm
      simp only [PGSIZE] at ho ⊢
      omega

/-- A page is handed out. -/
theorem sharing_alloc (he : (w.procs e).isSome) (perm : Word) :
  (w.alloc e va perm).sharing
    = (w.sharing.map (envPage e va) (some (Mapped.frame ⟨w.next, perm⟩))).write w.next (fun _ => 0)
  := by
  have hpage : ((w.setEntry e va (some ⟨w.next, perm⟩)).setMem
      (fill w.mem (w.next * PGSIZE) PGSIZE 0)).sharing
      = (w.setEntry e va (some ⟨w.next, perm⟩)).sharing.write w.next (fun _ => 0) := by
    apply sharing_page
    · intro o
      rw [fill, if_pos]
      have ho := o.isLt
      omega
    · intro x hx
      change fill w.mem _ _ _ x = w.mem x
      rw [fill, if_neg]
      omega
  have halloc : (w.alloc e va perm).sharing
      = (w.setEntry e va (some ⟨w.next, perm⟩)).sharing.write w.next (fun _ => 0) := hpage
  rw [halloc, sharing_setEntry he]
  rfl

/-! ### Mappings that system calls make -/

/-- The pages that are mapped were handed out, and an environment may read what it maps. -/
structure World.Plain (w : World) : Prop where
  wf : w.Wf
  user : ∀ e va m, w.entry e va = some m → m.perm &&& PTE_U = PTE_U

namespace World.Plain

theorem setMem (h : w.Plain) (m : Memory) :
  (w.setMem m).Plain
  := ⟨h.wf.setMem m, h.user⟩

theorem asked (h : w.Plain) :
  w.asked.Plain
  := ⟨h.wf.asked, h.user⟩

theorem askedTable (h : w.Plain) :
  w.askedTable.Plain
  := ⟨h.wf.askedTable, h.user⟩

theorem setEntry (h : w.Plain) {m : Option Mapped}
    (hm : ∀ m', m = some m' → m'.page < w.next ∧ m'.perm &&& PTE_U = PTE_U) :
  (w.setEntry e va m).Plain
  := by
  constructor
  case wf => exact h.wf.setEntry (fun m' hm' => (hm m' hm').1)
  case user =>
    intro e' va' m' hm'
    by_cases heq : e' = e ∧ PGNUM va' = PGNUM va
    · obtain ⟨rfl, hnum⟩ := heq
      cases hp : w.procs e' with
      | none =>
          rw [World.entry, procs_setEntry, hp] at hm'
          cases hm'
      | some p =>
          have hsome : (w.procs e').isSome := by
            rw [hp]
            rfl
          rw [entry_setEntry hsome hnum] at hm'
          exact (hm m' hm').2
    · rw [entry_setEntry_of_ne (fun h1 h2 => heq ⟨h1, h2⟩)] at hm'
      exact h.user _ _ _ hm'

theorem alloc (h : w.Plain) {perm : Word} (hperm : perm &&& PTE_U = PTE_U) :
  (w.alloc e va perm).Plain
  := by
  have hnext : World.Plain { w with next := w.next + 1 } :=
    ⟨⟨h.wf.self_ne, h.wf.running, fun e va m hm => Nat.lt_succ_of_lt (h.wf.fresh e va m hm)⟩, h.user⟩
  have hset : (World.setEntry { w with next := w.next + 1 } e va (some ⟨w.next, perm⟩)).Plain := by
    apply hnext.setEntry
    intro m' hm'
    obtain rfl := Option.some.inj hm'
    exact ⟨Nat.lt_succ_self _, hperm⟩
  exact ⟨⟨hset.wf.self_ne, hset.wf.running, hset.wf.fresh⟩, hset.user⟩

end World.Plain

/-- What an environment reads is what its pages show. -/
theorem World.Plain.view_eq (h : w.Plain) (e va : Word) :
  w.view e va = (w.sharing.view (envPage e va)).map (fun x => x ⟨PGOFF va, PGOFF_lt va⟩)
  := by
  rw [World.view, Sharing.view, sharing_maps]
  cases hm : w.entry e va with
  | none =>
      rw [World.translate, hm]
      rfl
  | some m =>
      have htr : w.translate e PTE_U va = some (m.page * PGSIZE + PGOFF va) :=
        translate_eq_some.mpr ⟨m, hm, h.user e va m hm, rfl⟩
      rw [htr]
      rfl

/-- An environment reads whatever is mapped. -/
theorem World.Plain.isSome_view (h : w.Plain) (e va : Word) :
  (w.view e va).isSome = (w.entry e va).isSome
  := by
  rw [h.view_eq, Option.isSome_map, Sharing.view, Option.isSome_map, sharing_maps, Option.isSome_map]

/-! ### System calls that are not refused -/

section Calls

variable {envid perm : Word} {B : Stop World → Prop}

/-- A call that is refused. -/
theorem refused_any {x : Word} {Q : Word → World → Prop} (hx : isError x = true) :
  (pure x : Prog World Word).EndsOr B w (fun r w' => isError r = false → Q r w')
  := by
  rw [endsOr_pure]
  intro hr
  rw [hx] at hr
  cases hr

theorem sysPageAlloc_any :
  (sysPageAlloc envid va perm).EndsOr B w (fun r w' => isError r = false →
    (w.procs (w.key envid)).isSome ∧ w' = w.asked.alloc (w.key envid) va perm)
  := by
  by_cases hva : UserPageAddr va
  · by_cases hperm : ProperPerm perm
    · cases hfind : w.find envid with
      | none =>
          have heq : sysPageAlloc envid va perm w = .ok (-E_BAD_ENV, w) := by
            rw [sysPageAlloc, if_neg (not_not.mpr hva), if_neg (not_not.mpr hperm), get_bind, hfind]
            rfl
          rw [endsOr_of_eq heq]
          exact fun hr => by cases hr
      | some p =>
          have hsome : (w.procs (w.key envid)).isSome := by
            rw [World.find] at hfind
            rw [hfind]
            rfl
          have heq := sysPageAlloc_eq hva hperm hfind
          split at heq
          · rw [endsOr_of_eq heq]
            intro hr
            cases hr
          · rw [endsOr_of_eq heq]
            exact fun _ => ⟨hsome, rfl⟩
    · rw [sysPageAlloc, if_neg (not_not.mpr hva), if_pos hperm, endsOr_pure]
      intro hr
      cases hr
  · rw [sysPageAlloc, if_pos hva, endsOr_pure]
    intro hr
    cases hr

theorem sysPageMap_any {srcva dstenvid dstva : Word} :
  (sysPageMap envid srcva dstenvid dstva perm).EndsOr B w (fun r w' =>
    isError r = false → (w.procs (w.key dstenvid)).isSome ∧ UserPageAddr dstva ∧
    ∃ m, w.entry (w.key envid) srcva = some m
      ∧ w' = w.askedTable.setEntry (w.key dstenvid) dstva (some ⟨m.page, perm⟩))
  := by
  rw [sysPageMap, endsOr_bind, endsOr_get]
  cases hsrc : w.find envid with
  | none => exact refused_any rfl
  | some p =>
      cases hdst : w.find dstenvid with
      | none => exact refused_any rfl
      | some p' =>
          have hsome : (w.procs (w.key dstenvid)).isSome := by
            rw [World.find] at hdst
            rw [hdst]
            rfl
          simp only
          rw [endsOr_ite]
          refine ⟨fun _ => refused_any rfl, fun hva => ?_⟩
          rw [endsOr_ite]
          refine ⟨fun _ => refused_any rfl, fun hperm => ?_⟩
          simp only [not_or, not_not] at hva
          cases hm : w.entry (w.key envid) srcva with
          | none => exact refused_any rfl
          | some m =>
              simp only
              rw [endsOr_ite]
              refine ⟨fun _ => refused_any rfl, fun _ => ?_⟩
              rw [endsOr_bind, requestTable, endsOr_bind, endsOr_get, endsOr_bind, endsOr_set,
                endsOr_pure, endsOr_ite]
              constructor
              · intro _
                exact refused_any rfl
              · intro _
                rw [endsOr_bind, endsOr_modify, endsOr_pure]
                exact fun _ => ⟨hsome, hva.2, m, rfl, rfl⟩

theorem sysPageUnmap_any :
  (sysPageUnmap envid va).EndsOr B w (fun r w' => isError r = false →
    (w.procs (w.key envid)).isSome ∧ w' = w.setEntry (w.key envid) va none)
  := by
  by_cases hva : UserPageAddr va
  · cases hfind : w.find envid with
    | none =>
        have heq : sysPageUnmap envid va w = .ok (-E_BAD_ENV, w) := by
          rw [sysPageUnmap, if_neg (not_not.mpr hva), get_bind, hfind]
          rfl
        rw [endsOr_of_eq heq]
        intro hr
        cases hr
    | some p =>
        have hsome : (w.procs (w.key envid)).isSome := by
          rw [World.find] at hfind
          rw [hfind]
          rfl
        rw [endsOr_of_eq (sysPageUnmap_eq hva hfind)]
        exact fun _ => ⟨hsome, rfl⟩
  · rw [sysPageUnmap, if_pos hva, endsOr_pure]
    intro hr
    cases hr

end Calls

/-! ### The invariant -/

/-- What may be written is mapped once, up to `L`. -/
structure World.Sound (L : EnvPage → EnvPage → Prop) (w : World) : Prop extends w.Plain where
  apart : w.sharing.Apart L

variable {L L' : EnvPage → EnvPage → Prop}

/-- A page that was not handed out is mapped nowhere. -/
theorem World.Wf.fresh_next (h : w.Wf) :
  w.sharing.Fresh w.next
  := by
  intro a b hmaps
  obtain ⟨va, ha⟩ := exists_envPage a
  rw [← ha, sharing_maps, Option.map_eq_some_iff] at hmaps
  obtain ⟨m, hm, hframe⟩ := hmaps
  have hpage : m.page = w.next := congrArg Prod.fst hframe
  have hlt := h.fresh _ _ _ hm
  omega

/-! ### What is kept -/

/-- The page may be written, maybe after it was copied. -/
def Mapped.Writable (m : Mapped) : Prop :=
  m.perm &&& PTE_W ≠ 0 ∨ m.perm &&& PTE_COW ≠ 0

/-- From `w` to `w'` the system gave some answers. -/
structure Later (w w' : World) : Prop where
  fate : ∃ n, ∀ k, w'.fate k = w.fate (k + n)
  tables : ∃ n, ∀ k, w'.tables k = w.tables (k + n)

namespace Later

theorem refl (w : World) :
  Later w w
  := ⟨⟨0, fun _ => rfl⟩, ⟨0, fun _ => rfl⟩⟩

theorem trans {w1 : World} (h : Later w w1) (h' : Later w1 w') :
  Later w w'
  := by
  obtain ⟨⟨n, hn⟩, ⟨t, ht⟩⟩ := h
  obtain ⟨⟨n', hn'⟩, ⟨t', ht'⟩⟩ := h'
  constructor
  case fate => exact ⟨n' + n, fun k => by rw [hn', hn, Nat.add_assoc]⟩
  case tables => exact ⟨t' + t, fun k => by rw [ht', ht, Nat.add_assoc]⟩

end Later

/-- What `m'` allows in the place of `m`. -/
structure Mapped.Keeps (va : Word) (m m' : Mapped) : Prop where
  writable : m.Writable → m'.Writable
  stack : PGNUM va = PGNUM excStack → m.perm &&& PTE_W ≠ 0 → m'.perm &&& PTE_W ≠ 0

/-- From `w` to `w'` the environment `e` kept its pages, and may still write to those that it might
write to. -/
structure Keeps (e : Word) (w w' : World) : Prop where
  pages : ∀ va m, PGNUM va ≠ PGNUM PFTEMP → w.entry e va = some m →
    ∃ m', w'.entry e va = some m' ∧ m.Keeps va m'
  temp : ∀ va, PGNUM va = PGNUM PFTEMP → w.entry e va = none → w'.entry e va = none

theorem Mapped.Keeps.refl (va : Word) (m : Mapped) :
  m.Keeps va m
  := ⟨id, fun _ => id⟩

theorem Mapped.Keeps.of_writable {m m' : Mapped} (h : m'.perm &&& PTE_W ≠ 0) :
  m.Keeps va m'
  := ⟨fun _ => Or.inl h, fun _ _ => h⟩

namespace Keeps

theorem of_entry (h : ∀ va, w'.entry e va = w.entry e va) :
  Keeps e w w'
  := ⟨fun va m _ hm => ⟨m, (h va).trans hm, Mapped.Keeps.refl va m⟩,
    fun va _ hnone => (h va).trans hnone⟩

theorem trans {w1 : World} (h : Keeps e w w1) (h' : Keeps e w1 w') :
  Keeps e w w'
  := by
  constructor
  case pages =>
    intro va m hva hm
    obtain ⟨m1, hm1, hkeeps⟩ := h.pages va m hva hm
    obtain ⟨m2, hm2, hkeeps'⟩ := h'.pages va m1 hva hm1
    exact ⟨m2, hm2, fun hwr => hkeeps'.writable (hkeeps.writable hwr),
      fun hexc hwr => hkeeps'.stack hexc (hkeeps.stack hexc hwr)⟩
  case temp => exact fun va hva hnone => h'.temp va hva (h.temp va hva hnone)

/-- A page takes the place of another one. -/
theorem of_page (va : Word) (m : Mapped) (hpage : ∀ va', PGNUM va' = PGNUM va → w'.entry e va' = some m)
    (hothers : ∀ va', PGNUM va' ≠ PGNUM va → w'.entry e va' = w.entry e va'
      ∨ (PGNUM va' = PGNUM PFTEMP ∧ w'.entry e va' = none))
    (hm : ∀ va' m', PGNUM va' = PGNUM va → w.entry e va' = some m' → m'.Keeps va' m)
    (htemp : PGNUM va = PGNUM PFTEMP → w.entry e va ≠ none) :
  Keeps e w w'
  := by
  constructor
  case pages =>
    intro va' m' hva' hm'
    by_cases hnum : PGNUM va' = PGNUM va
    · exact ⟨m, hpage va' hnum, hm va' m' hnum hm'⟩
    · obtain heq | hno := hothers va' hnum
      · exact ⟨m', heq.trans hm', Mapped.Keeps.refl va' m'⟩
      · exact (hva' hno.1).elim
  case temp =>
    intro va' hva' hnone
    by_cases hnum : PGNUM va' = PGNUM va
    · rw [World.entry, hnum, ← World.entry] at hnone
      exact (htemp (hnum.symm.trans hva') hnone).elim
    · obtain heq | hno := hothers va' hnum
      · exact heq.trans hnone
      · exact hno.2

end Keeps

/-! ### The handler -/

theorem Mapped.frame_writable (p : Nat) :
  Mapped.frame ⟨p, PTE_P ||| PTE_U ||| PTE_W⟩ = (p, true)
  := by
  have hw : decide ((PTE_P ||| PTE_U ||| PTE_W) &&& PTE_W ≠ 0) = true := by decide
  rw [Mapped.frame, hw]

theorem Mapped.frame_readonly (p : Nat) {perm : Word} (h : perm &&& PTE_W = 0) :
  Mapped.frame ⟨p, perm⟩ = (p, false)
  := by
  rw [Mapped.frame, h]
  rfl

/-- A result that is checked. -/
theorem check_any {σ α : Type} {B : Stop σ → Prop} {s : σ} {r : Word} {msg : String}
    {m : Prog σ α} {Q : α → σ → Prop} (hB : B (.panic msg))
    (h : isError r = false → m.EndsOr B s Q) :
  (if isError r then Prog.panic msg else m).EndsOr B s Q
  := by
  cases hr : isError r with
  | true =>
      rw [if_pos rfl, endsOr_panic]
      exact hB
  | false =>
      rw [if_neg Bool.false_ne_true]
      exact h hr

theorem ROUNDDOWN_PAGE (a : Word) :
  (ROUNDDOWN a PAGE).toNat % PGSIZE = 0 ∧ PGNUM (ROUNDDOWN a PAGE) = PGNUM a
    ∧ off (ROUNDDOWN a PAGE) (PGOFF a) = a
  := by
  have ha := a.isLt
  have hpage : PAGE.toNat = 4096 := by decide
  have hround : (ROUNDDOWN a PAGE).toNat = a.toNat - a.toNat % 4096 := by
    rw [ROUNDDOWN, BitVec.toNat_sub_of_le, BitVec.toNat_umod, hpage]
    rw [BitVec.le_def, BitVec.toNat_umod, hpage]
    apply Nat.mod_le
  refine ⟨?_, ?_, ?_⟩
  · rw [hround, PGSIZE]
    omega
  · rw [PGNUM_eq, PGNUM_eq, hround]
    omega
  · apply BitVec.eq_of_toNat_eq
    rw [off_toNat, hround, PGOFF_eq]
    omega

/-- The bytes that the view `v` shows at `src` are copied to the page `p`, which is mapped at `dst`. -/
theorem memmoveUp_eq {v : View} {p : Nat} {dst src : Word} {x : Nat → Byte}
    (h : Room w v dst p) (hsrc : ∀ i < PGSIZE, v (off src i) = some (x i)) :
  ∃ m, memmoveUp dst src PGSIZE w = .ok ((), w.setMem m) ∧ SameBut p 0 PGSIZE w.mem m
    ∧ ∀ i < PGSIZE, m (p * PGSIZE + i) = x i
  := by
  have hends : (memmoveUp dst src PGSIZE).Ends w (fun _ w' => ∃ m, w' = w.setMem m
      ∧ SameBut p 0 PGSIZE w.mem m ∧ ∀ i < PGSIZE, m (p * PGSIZE + i) = x i)
      (fun _ => False) := by
    apply ends_forUp_zero (fun n w' => ∃ m, w' = w.setMem m ∧ SameBut p 0 PGSIZE w.mem m
      ∧ ∀ i < n, m (p * PGSIZE + i) = x i)
    · rintro i _ hi ⟨m, rfl, hm, hbytes⟩
      have hroom := h.setMem hm
      have hload : load (off src i) (w.setMem m) = .ok (x i, w.setMem m) :=
        load_eq (hroom.within _ _ (hsrc i hi))
      rw [ends_bind, ends_of_eq hload, ends_of_eq (store_eq (hroom.writable i hi) (x i))]
      refine ⟨_, rfl, ?_, ?_⟩
      · intro a ha
        change write8 m _ _ a = _
        rw [write8, if_neg (by omega)]
        exact hm a ha
      · intro j hj
        change write8 m _ _ _ = _
        rw [write8]
        by_cases hji : j = i
        · rw [if_pos (by rw [hji]), hji]
        · rw [if_neg (by omega)]
          exact hbytes j (by omega)
    · exact ⟨w.mem, rfl, fun _ _ => rfl, fun _ hi => (Nat.not_lt_zero _ hi).elim⟩
  obtain ⟨_, _, heq, m, rfl, hm, hbytes⟩ := hends.returns
  exact ⟨m, heq, hm, hbytes⟩

/-- From `w` to `w'` the running environment got a copy of its own of the page at `va`. -/
structure Owned (va : Word) (w w' : World) : Prop where
  plain : w'.Plain
  self : w'.self = w.self
  running : (w'.procs w.self).isSome
  procs : ∀ e, e ≠ w.self → w'.procs e = w.procs e
  mapped : ∀ va', PGNUM va' ≠ PGNUM PFTEMP →
    (w'.entry w.self va').isSome = (w.entry w.self va').isSome
  keeps : Keeps w.self w w'
  later : Later w w'
  sharing : ∃ m, w.entry w.self va = some m ∧
    w'.sharing = w.sharing.own (envPage w.self PFTEMP) (envPage w.self va) w.next m.page

theorem perm_writable :
  (PTE_P ||| PTE_U ||| PTE_W) &&& (PTE_U ||| PTE_W) = PTE_U ||| PTE_W
    ∧ (PTE_P ||| PTE_U ||| PTE_W) &&& PTE_U = PTE_U
  := by decide

/-- The page at `va` is copied to a new page at `PFTEMP`. -/
structure CopiedOut (m : Mapped) (w w' : World) : Prop where
  plain : w'.Plain
  self : w'.self = w.self
  running : (w'.procs w.self).isSome
  procs : ∀ e, e ≠ w.self → w'.procs e = w.procs e
  temp : w'.entry w.self PFTEMP = some ⟨w.next, PTE_P ||| PTE_U ||| PTE_W⟩
  fresh : w.next < w'.next
  mapped : ∀ va, PGNUM va ≠ PGNUM PFTEMP → w'.entry w.self va = w.entry w.self va
  later : Later w w'
  sharing : w'.sharing = ((w.sharing.map (envPage w.self PFTEMP) (some (w.next, true))).write w.next
    (fun _ => 0)).write w.next (w.sharing.mem m.page)

/-- A new page is put together. -/
theorem copiedOut (h : w.Plain) {m : Mapped} (hm : w.entry w.self va = some m)
    (hva : PGNUM va ≠ PGNUM PFTEMP) :
  ∃ w', memmoveUp PFTEMP (ROUNDDOWN va PAGE) PGSIZE
      (w.asked.alloc w.self PFTEMP (PTE_P ||| PTE_U ||| PTE_W)) = .ok ((), w')
    ∧ CopiedOut m w w'
  := by
  obtain ⟨haligned, hnum, -⟩ := ROUNDDOWN_PAGE va
  have htemp : PFTEMP.toNat % PGSIZE = 0 := by decide
  obtain ⟨hperm, huser⟩ := perm_writable
  have hrun : (w.asked.procs w.self).isSome := h.wf.running
  have hroom := Room.alloc (w := w.asked) h.wf.asked htemp hperm
  have hsrc : ∀ i < PGSIZE, ((w.asked.view w.asked.self).on (fun a => PGNUM a ≠ PGNUM PFTEMP))
      (off (ROUNDDOWN va PAGE) i) = some (w.mem (m.page * PGSIZE + i)) := by
    intro i hi
    obtain ⟨hnum', hoff⟩ := off_page haligned hi
    rw [on, if_pos (by rw [hnum', hnum]; exact hva), view_eq_some]
    refine ⟨m.page * PGSIZE + i, translate_eq_some.mpr ⟨m, ?_, h.user _ _ _ hm, ?_⟩, rfl⟩
    · rw [← hm, World.entry, World.entry, hnum', hnum]
      rfl
    · rw [hoff]
  obtain ⟨x, heq, hx, hbytes⟩ := memmoveUp_eq hroom hsrc
  refine ⟨_, heq, ?_⟩
  constructor
  case plain => exact (h.asked.alloc huser).setMem x
  case self => rfl
  case running =>
    have hset := @isSome_setEntry w.asked w.self PFTEMP w.self
      (some ⟨w.next, PTE_P ||| PTE_U ||| PTE_W⟩)
    rw [hrun] at hset
    exact hset
  case procs => exact fun e he => procs_setEntry_of_ne he _
  case temp => exact entry_setEntry hrun rfl _
  case fresh => exact Nat.lt_succ_self _
  case mapped => exact fun va' hva' => entry_setEntry_of_ne (fun _ => hva') _
  case later => exact ⟨⟨1, fun _ => rfl⟩, ⟨0, fun _ => rfl⟩⟩
  case sharing =>
    have hpage : ((w.asked.alloc w.self PFTEMP (PTE_P ||| PTE_U ||| PTE_W)).setMem x).sharing
        = (w.asked.alloc w.self PFTEMP (PTE_P ||| PTE_U ||| PTE_W)).sharing.write w.next
          (w.sharing.mem m.page) :=
      sharing_page (fun o => hbytes o o.isLt) hx
    refine Eq.trans hpage ?_
    rw [sharing_alloc hrun, Mapped.frame_writable]
    rfl

/-- The handler gives the environment a copy of its own of the page, if it returns. -/
theorem pgfault_any {B : Stop World → Prop} (hB : ∀ msg, B (.panic msg)) (h : w.Plain) (err : Word)
    (hva : PGNUM va ≠ PGNUM PFTEMP) :
  (pgfault va err).EndsOr B w (fun _ w' => Owned va w w')
  := by
  obtain ⟨-, hnum, -⟩ := ROUNDDOWN_PAGE va
  obtain ⟨-, huser⟩ := perm_writable
  have hself := h.wf.self_ne
  have hkey : ∀ w1 : World, w1.key w.self = w.self := by
    intro w1
    rw [World.key, if_neg hself]
  rw [pgfault, endsOr_ite]
  refine ⟨fun _ => (endsOr_panic _).mpr (hB _), fun _ => ?_⟩
  rw [endsOr_bind, uvptFlags, endsOr_bind, endsOr_get, endsOr_pure, endsOr_ite]
  refine ⟨fun _ => (endsOr_panic _).mpr (hB _), fun hcow => ?_⟩
  obtain ⟨m, hm⟩ : ∃ m, w.entry w.self va = some m := by
    cases hm : w.entry w.self va with
    | some m => exact ⟨m, rfl⟩
    | none =>
        have hnone : w.entry w.self (ROUNDDOWN va PAGE) = none := by
          rw [← hm, World.entry, World.entry, hnum]
        rw [hnone] at hcow
        exact (hcow (by decide)).elim
  rw [endsOr_bind, sysGetenvid, endsOr_bind, endsOr_get, endsOr_pure, endsOr_bind]
  apply sysPageAlloc_any.mono
  intro r w1 h1
  apply check_any (hB _)
  intro hr
  obtain ⟨-, rfl⟩ := h1 hr
  rw [hkey]
  obtain ⟨w2, heq, hcopy⟩ := copiedOut h hm hva
  rw [endsOr_bind, endsOr_of_eq heq, endsOr_bind]
  apply sysPageMap_any.mono
  intro r w3 h3
  apply check_any (hB _)
  intro hr
  obtain ⟨hrun2, -, m', hm', rfl⟩ := h3 hr
  rw [hkey] at hrun2 hm' ⊢
  rw [hcopy.temp] at hm'
  obtain rfl := Option.some.inj hm'
  rw [endsOr_bind]
  apply sysPageUnmap_any.mono
  intro r w4 h4
  apply check_any (hB _)
  intro hr
  obtain ⟨hrun3, rfl⟩ := h4 hr
  rw [hkey] at hrun3 ⊢
  rw [endsOr_pure]
  have hne : envPage w.self va ≠ envPage w.self PFTEMP := by
    intro heq
    exact hva (envPage_eq.mp heq).2
  constructor
  case plain =>
    apply (hcopy.plain.askedTable.setEntry _).setEntry
    · intro m' hm'
      cases hm'
    · intro m' hm'
      obtain rfl := Option.some.inj hm'
      exact ⟨hcopy.fresh, huser⟩
  case self => exact hcopy.self
  case running =>
    rw [isSome_setEntry]
    exact hrun3
  case procs =>
    intro e he
    rw [procs_setEntry_of_ne he, procs_setEntry_of_ne he]
    exact hcopy.procs e he
  case mapped =>
    intro va' hva'
    rw [entry_setEntry_of_ne (fun _ => hva')]
    by_cases hpn : PGNUM va' = PGNUM va
    · rw [entry_setEntry (w := w2.askedTable) hcopy.running (hpn.trans hnum.symm)]
      have hsame : w.entry w.self va' = some m := by
        rw [← hm, World.entry, World.entry, hpn]
      rw [hsame]
      rfl
    · rw [entry_setEntry_of_ne (fun _ => hnum ▸ hpn)]
      exact congrArg Option.isSome (hcopy.mapped va' hva')
  case keeps =>
    apply Keeps.of_page va ⟨w.next, PTE_P ||| PTE_U ||| PTE_W⟩
    · intro va' hva'
      rw [entry_setEntry_of_ne (fun _ => hva' ▸ hva)]
      exact entry_setEntry (w := w2.askedTable) hcopy.running (hva'.trans hnum.symm) _
    · intro va' hva'
      by_cases htemp : PGNUM va' = PGNUM PFTEMP
      · exact Or.inr ⟨htemp, entry_setEntry hrun3 htemp _⟩
      · rw [entry_setEntry_of_ne (fun _ => htemp), entry_setEntry_of_ne (fun _ => hnum ▸ hva')]
        exact Or.inl (hcopy.mapped va' htemp)
    · intro va' m' _ _
      have hbit : (PTE_P ||| PTE_U ||| PTE_W) &&& PTE_W ≠ 0 := by decide
      exact Mapped.Keeps.of_writable hbit
    · exact fun htemp => (hva htemp).elim
  case later => exact hcopy.later.trans ⟨⟨0, fun _ => rfl⟩, ⟨1, fun _ => rfl⟩⟩
  case sharing =>
    use m, hm
    have hround : envPage w.self (ROUNDDOWN va PAGE) = envPage w.self va :=
      envPage_eq.mpr ⟨rfl, hnum⟩
    rw [sharing_setEntry hrun3, sharing_setEntry (w := w2.askedTable) hcopy.running,
      sharing_askedTable, hcopy.sharing, hround, Option.map_some, Option.map_none,
      Mapped.frame_writable]
    apply Sharing.own_eq hne

/-! ### Writes -/

/-- The running environment reads its own page `PFTEMP` at `va`. -/
def Temp (w : World) (e va : Word) : Prop :=
  e = w.self ∧ PGNUM va = PGNUM PFTEMP

/-- From `w` to `w'` the running environment wrote `b` to `va`. -/
structure Wrote (L : EnvPage → EnvPage → Prop) (va : Word) (b : Byte) (w w' : World) : Prop where
  sound : w'.Sound L
  self : w'.self = w.self
  running : (w'.procs w.self).isSome
  procs : ∀ e, e ≠ w.self → w'.procs e = w.procs e
  mapped : ∀ va', PGNUM va' ≠ PGNUM PFTEMP →
    (w'.entry w.self va').isSome = (w.entry w.self va').isSome
  keeps : Keeps w.self w w'
  later : Later w w'
  written : w'.view w.self va = some b
  others : ∀ e va', ¬ Temp w e va' → ¬ (e = w.self ∧ va' = va) →
    ¬ (L (envPage w.self va) (envPage e va') ∧ PGOFF va' = PGOFF va) → w'.view e va' = w.view e va'

/-- A write to a page that may be written. -/
theorem store_any (h : w.Sound L) (va : Word) (b : Byte) :
  (store va b).EndsOr (fun _ => True) w (fun _ w' => Wrote L va b w w')
  := by
  cases htr : w.translate w.self (PTE_U ||| PTE_W) va with
  | none =>
      have heq : store va b w = .error (.fault va.toNat) := by
        rw [store, get_bind, htr]
        rfl
      rw [endsOr_of_error heq]
      trivial
  | some pa =>
      rw [endsOr_of_eq (store_eq htr b)]
      obtain ⟨m, hm, hperm, rfl⟩ := translate_eq_some.mp htr
      have hmaps : w.sharing.maps (envPage w.self va) = some (m.page, true) := by
        have hw : m.perm &&& PTE_W = PTE_W := by
          rw [BitVec.or_comm] at hperm
          exact and_of_and_or hperm
        have hbit : decide (m.perm &&& PTE_W ≠ 0) = true := by
          rw [hw]
          decide
        rw [sharing_maps, hm, Option.map_some, Mapped.frame, hbit]
      have hplain := h.toPlain.setMem (write8 w.mem (m.page * PGSIZE + PGOFF va) b)
      have hsh := sharing_write8 (w := w) m.page ⟨PGOFF va, PGOFF_lt va⟩ b
      constructor
      case sound =>
        refine ⟨hplain, ?_⟩
        refine hsh ▸ h.apart.write _ _
      case self => rfl
      case running => exact h.wf.running
      case procs => exact fun _ _ => rfl
      case mapped => exact fun _ _ => rfl
      case keeps => exact Keeps.of_entry (fun _ => rfl)
      case later => exact ⟨⟨0, fun _ => rfl⟩, ⟨0, fun _ => rfl⟩⟩
      case written =>
        rw [view_eq_some]
        exact ⟨_, translate_of_writable htr, if_pos rfl⟩
      case others =>
        intro e va' _ hne hlent
        rw [World.view, World.view, translate_setMem]
        cases htr' : w.translate e PTE_U va' with
        | none => rfl
        | some pa =>
            have hpa : pa ≠ m.page * PGSIZE + PGOFF va := by
              rintro rfl
              obtain ⟨m', hm', -, heq⟩ := translate_eq_some.mp htr'
              have hlt := PGOFF_lt va
              have hlt' := PGOFF_lt va'
              simp only [PGSIZE] at heq hlt hlt'
              have hpage : m'.page = m.page := by omega
              have hoff : PGOFF va' = PGOFF va := by omega
              have hmaps' : w.sharing.maps (envPage e va') = some (m.page, m'.frame.2) := by
                rw [sharing_maps, hm', Option.map_some, ← hpage]
                rfl
              obtain hsame | hl := h.apart _ _ _ _ hmaps hmaps'
              · obtain ⟨rfl, hnum⟩ := envPage_eq.mp hsame
                apply hne
                refine ⟨rfl, ?_⟩
                apply BitVec.eq_of_toNat_eq
                rw [PGNUM_eq, PGNUM_eq] at hnum
                rw [PGOFF_eq, PGOFF_eq] at hoff
                omega
              · exact hlent ⟨hl, hoff⟩
            rw [Option.map_some, Option.map_some]
            exact congrArg some (if_neg hpa)

/-! ### Writes that may be faults -/

/-- What the handler leaves behind. -/
theorem Owned.sound (hown : Owned va w w') (h : w.Sound L) :
  w'.Sound L ∧ ∀ e va', ¬ Temp w e va' → w'.view e va' = w.view e va'
  := by
  obtain ⟨m, hm, hsh⟩ := hown.sharing
  have hfresh := h.wf.fresh_next
  have hsound : w'.Sound L := by
    refine ⟨hown.plain, ?_⟩
    rw [hsh]
    apply h.apart.own hfresh
  refine ⟨hsound, ?_⟩
  intro e va' htemp
  have hmaps : w.sharing.maps (envPage w.self va) = some (m.page, m.frame.2) := by
    rw [sharing_maps, hm]
    rfl
  have hne : envPage e va' ≠ envPage w.self PFTEMP := fun heq => htemp (envPage_eq.mp heq)
  rw [hsound.view_eq, h.view_eq, hsh, hfresh.view_own hmaps hne]

/-- The handler, and then the write it was called for. -/
theorem Owned.wrote {w1 : World} {b : Byte} (hown : Owned va w w1) (h : w.Sound L)
    (hwrote : Wrote L va b w1 w') :
  Wrote L va b w w'
  := by
  obtain ⟨-, hviews⟩ := hown.sound h
  have hself := hown.self
  constructor
  case sound => exact hwrote.sound
  case self => exact hwrote.self.trans hself
  case running => exact hself ▸ hwrote.running
  case procs =>
    intro e he
    rw [hwrote.procs e (hself ▸ he), hown.procs e he]
  case mapped =>
    intro va' hva'
    have hmapped := hwrote.mapped va' hva'
    rw [hself] at hmapped
    rw [hmapped, hown.mapped va' hva']
  case keeps => exact hown.keeps.trans (hself ▸ hwrote.keeps)
  case later => exact hown.later.trans hwrote.later
  case written => exact hself ▸ hwrote.written
  case others =>
    intro e va' htemp hne hlent
    have hothers := hwrote.others e va'
    rw [Temp, hself] at hothers
    rw [hothers htemp hne hlent, hviews e va' htemp]

variable (l : Linked) {f f' : Family}

theorem load32_any {s : World} {x : Word} :
  (load32 x).EndsOr (fun _ => True) s (fun _ s' => s' = s)
  := by
  have hload : ∀ (x : Word) (s : World), (load x).EndsOr (fun _ => True) s (fun _ s' => s' = s) := by
    intro x s
    rw [load, endsOr_bind, endsOr_get, endsOr_bind, endsOr_orElse]
    exact ⟨fun _ _ => (endsOr_pure _).mpr rfl, fun _ => (endsOr_fault _).mpr trivial⟩
  rw [load32, endsOr_bind]
  apply (hload _ _).mono
  rintro _ _ rfl
  rw [endsOr_bind]
  apply (hload _ _).mono
  rintro _ _ rfl
  rw [endsOr_bind]
  apply (hload _ _).mono
  rintro _ _ rfl
  rw [endsOr_bind]
  apply (hload _ _).mono
  rintro _ _ rfl
  rw [endsOr_pure]

/-- A page fault of the running environment, if it goes on. -/
theorem pageFault_any (h : f.world.Plain) (err : Word) (hva : PGNUM va ≠ PGNUM PFTEMP) :
  (pageFault l va err).EndsOr (fun _ => True) f
    (fun _ f' => f'.upcall = f.upcall ∧ Owned va f.world f'.world)
  := by
  rw [pageFault, endsOr_bind, endsOr_get, endsOr_ite]
  refine ⟨fun _ => endsOr_leave.mpr trivial, fun _ => ?_⟩
  rw [endsOr_bind, sys, endsOr_zoom]
  apply load32_any.mono
  rintro handler _ rfl
  rw [endsOr_ite]
  refine ⟨fun _ => ?_, fun _ => (endsOr_fault _).mpr trivial⟩
  rw [sys, endsOr_zoom]
  apply (pgfault_any (fun _ => trivial) h err hva).mono
  exact fun _ w' hown => ⟨rfl, hown⟩

/-- A write, if it goes on. -/
theorem write_any (h : f.world.Sound L) (hva : PGNUM va ≠ PGNUM PFTEMP) (b : Byte) :
  (write l va b).EndsOr (fun _ => True) f
    (fun _ f' => f'.upcall = f.upcall ∧ Wrote L va b f.world f'.world)
  := by
  rw [write, endsOr_bind, endsOr_get]
  simp only
  split
  case isTrue =>
    rw [endsOr_bind]
    apply (pageFault_any l h.toPlain _ hva).mono
    rintro _ f1 ⟨hup, hown⟩
    rw [sys, endsOr_zoom]
    apply (store_any (hown.sound h).1 va b).mono
    exact fun _ w' hwrote => ⟨hup, hown.wrote h hwrote⟩
  case isFalse =>
    rw [sys, endsOr_zoom]
    apply (store_any h va b).mono
    exact fun _ w' hwrote => ⟨rfl, hwrote⟩

/-! ### Many writes -/

/-- From `w` to `w'` the running environment wrote to addresses in `X` only. -/
structure Touched (L : EnvPage → EnvPage → Prop) (X : Word → Prop) (w w' : World) : Prop where
  sound : w'.Sound L
  self : w'.self = w.self
  procs : ∀ e, e ≠ w.self → w'.procs e = w.procs e
  mapped : ∀ va, PGNUM va ≠ PGNUM PFTEMP →
    (w'.entry w.self va).isSome = (w.entry w.self va).isSome
  keeps : Keeps w.self w w'
  later : Later w w'
  others : ∀ e va, ¬ Temp w e va → (e = w.self → ¬ X va) →
    (∀ va', X va' → PGOFF va = PGOFF va' → ¬ L (envPage w.self va') (envPage e va)) →
    w'.view e va = w.view e va

namespace Touched

variable {X : Word → Prop}

theorem refl (h : w.Sound L) (X : Word → Prop) :
  Touched L X w w
  := ⟨h, rfl, fun _ _ => rfl, fun _ _ => rfl, Keeps.of_entry (fun _ => rfl), Later.refl w,
    fun _ _ _ _ _ => rfl⟩

theorem trans {w1 : World} (h : Touched L X w w1) (h' : Touched L X w1 w') :
  Touched L X w w'
  := by
  have hself := h.self
  constructor
  case sound => exact h'.sound
  case self => exact h'.self.trans hself
  case procs =>
    intro e he
    rw [h'.procs e (hself ▸ he), h.procs e he]
  case mapped =>
    intro va hva
    have hmapped := h'.mapped va hva
    rw [hself] at hmapped
    rw [hmapped, h.mapped va hva]
  case keeps => exact h.keeps.trans (hself ▸ h'.keeps)
  case later => exact h.later.trans h'.later
  case others =>
    intro e va htemp hX hL
    have hothers := h'.others e va
    rw [Temp, hself] at hothers
    rw [hothers htemp hX hL, h.others e va htemp hX hL]

end Touched

theorem Wrote.touched {X : Word → Prop} {b : Byte} (h : Wrote L va b w w') (hX : X va) :
  Touched L X w w'
  := by
  constructor
  case sound => exact h.sound
  case self => exact h.self
  case procs => exact h.procs
  case mapped => exact h.mapped
  case keeps => exact h.keeps
  case later => exact h.later
  case others =>
    intro e va' htemp hne hlent
    apply h.others e va' htemp
    · rintro ⟨he, rfl⟩
      exact hne he hX
    · exact fun hl => hlent va hX hl.2 hl.1

/-- Writes, if they go on. -/
theorem writes_any {X : Word → Prop} {ws : List (Word × Byte)} (h : f.world.Sound L)
    (hws : ∀ x ∈ ws, X x.1 ∧ PGNUM x.1 ≠ PGNUM PFTEMP) :
  (writes l ws).EndsOr (fun _ => True) f
    (fun _ f' => f'.upcall = f.upcall ∧ Touched L X f.world f'.world)
  := by
  induction ws generalizing f with
  | nil =>
      rw [writes, endsOr_pure]
      exact ⟨rfl, Touched.refl h X⟩
  | cons x ws ih =>
      obtain ⟨hX, hva⟩ := hws x (List.mem_cons_self ..)
      rw [writes, endsOr_bind]
      apply (write_any l h hva x.2).mono
      rintro _ f1 ⟨hup, hwrote⟩
      apply (ih hwrote.sound (fun y hy => hws y (List.mem_cons_of_mem x hy))).mono
      rintro _ f2 ⟨hup', htouched⟩
      exact ⟨hup'.trans hup, (hwrote.touched hX).trans htouched⟩

end User

end Jos
