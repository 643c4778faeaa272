import Jos.User.Cow

/-!
# What `fork` copies

`fork` goes through the pages of the running environment and maps each of them in the new
environment as well.  While it does so it writes to its own stack frame, so that the handler copies
pages under its feet.  Whatever it writes, at the end the new environment reads what the old one
reads, and no page that may be written is mapped twice.
-/

namespace Jos

namespace User

open Bytes Prog View

variable {w w' : World} {e va : Word} {c : Word} {X : Word → Prop}

/-! ### Mapping a page once more -/

/-- The page at `va` in `e` is mapped at `va` in `e'` as well. -/
structure Again (e e' va perm : Word) (m : Mapped) (w w' : World) : Prop where
  plain : w'.Plain
  self : w'.self = w.self
  running : (w'.procs e').isSome
  procs : ∀ x, x ≠ e' → w'.procs x = w.procs x
  entry : ∀ va', PGNUM va' = PGNUM va → w'.entry e' va' = some ⟨m.page, perm⟩
  entries : ∀ x va', ¬ (x = e' ∧ PGNUM va' = PGNUM va) → w'.entry x va' = w.entry x va'
  sharing : w'.sharing = w.sharing.map (envPage e' va) (some (Mapped.frame ⟨m.page, perm⟩))
  shows : ∀ va', PGNUM va' = PGNUM va → w'.view e' va' = w.view e va'
  views : ∀ x va', ¬ (x = e' ∧ PGNUM va' = PGNUM va) → w'.view x va' = w.view x va'
  later : Later w w'

theorem again {e' perm : Word} {m : Mapped} (h : w.Plain) (hm : w.entry e va = some m)
    (he' : (w.procs e').isSome) (hperm : perm &&& PTE_U = PTE_U) :
  Again e e' va perm m w (w.askedTable.setEntry e' va (some ⟨m.page, perm⟩))
  := by
  have hplain : (w.askedTable.setEntry e' va (some ⟨m.page, perm⟩)).Plain := by
    apply h.askedTable.setEntry
    intro m' hm'
    obtain rfl := Option.some.inj hm'
    exact ⟨h.wf.fresh e va m hm, hperm⟩
  have hsh : (w.askedTable.setEntry e' va (some ⟨m.page, perm⟩)).sharing
      = w.sharing.map (envPage e' va) (some (Mapped.frame ⟨m.page, perm⟩)) := by
    rw [sharing_setEntry (w := w.askedTable) he', sharing_askedTable]
    rfl
  constructor
  case plain => exact hplain
  case self => rfl
  case running =>
    rw [isSome_setEntry]
    exact he'
  case procs => exact fun x hx => procs_setEntry_of_ne hx _
  case entry => exact fun va' hva' => entry_setEntry (w := w.askedTable) he' hva' _
  case entries => exact fun x va' hne => entry_setEntry_of_ne (fun h1 h2 => hne ⟨h1, h2⟩) _
  case sharing => exact hsh
  case shows =>
    intro va' hva'
    have hpage : envPage e' va' = envPage e' va := envPage_eq.mpr ⟨rfl, hva'⟩
    have hpage' : envPage e va' = envPage e va := envPage_eq.mpr ⟨rfl, hva'⟩
    rw [hplain.view_eq, h.view_eq, hsh, hpage, hpage', Mapped.frame, Sharing.view_map_self,
      Sharing.view, sharing_maps, hm]
    rfl
  case views =>
    intro x va' hne
    have hpage : envPage x va' ≠ envPage e' va := fun heq => hne (envPage_eq.mp heq)
    rw [hplain.view_eq, h.view_eq, hsh, Sharing.view_map_of_ne hpage]
  case later => exact ⟨⟨0, fun _ => rfl⟩, ⟨1, fun _ => rfl⟩⟩

/-! ### Duplicating a page -/

/-- The pages that are not copied: the one for putting pages together, and the exception stack. -/
def Uncopied (va : Word) : Prop :=
  PGNUM va = PGNUM PFTEMP ∨ PGNUM va = PGNUM excStack

/-- Pages of `s` are lent to `c` only, where they have the same address. -/
def Lends (L : EnvPage → EnvPage → Prop) (s c : Word) : Prop :=
  ∀ va e va', L (envPage s va) (envPage e va') → e = c ∧ PGNUM va' = PGNUM va

/-- The first `n` pages of the running environment have been mapped in `c` since the state `w`. -/
structure Forked (L : EnvPage → EnvPage → Prop) (X : Word → Prop) (c : Word) (n : Nat)
    (w w' : World) : Prop where
  sound : w'.Sound L
  self : w'.self = w.self
  child : (w'.procs c).isSome
  procs : ∀ e, e ≠ w.self → e ≠ c → w'.procs e = w.procs e
  mapped : ∀ va, PGNUM va ≠ PGNUM PFTEMP →
    (w'.entry w.self va).isSome = (w.entry w.self va).isSome
  keeps : Keeps w.self w w'
  later : Later w w'
  others : ∀ e va, e ≠ c → ¬ Temp w e va → (e = w.self → ¬ X va) → w'.view e va = w.view e va
  copied : ∀ va, PGNUM va < n → ¬ Uncopied va →
    (w'.entry c va).isSome = (w.entry w.self va).isSome
    ∧ (¬ X va → w'.view c va = w.view w.self va)
  may : ∀ va m, PGNUM va < n → ¬ Uncopied va → w.entry w.self va = some m → m.Writable →
    ∃ m', w'.entry c va = some m' ∧ m'.Writable
  readonly : ∀ va m, w'.entry c va = some m → m.perm &&& PTE_W = 0
  temp : ∀ va, PGNUM va = PGNUM PFTEMP → w.entry w.self va = none → w'.entry c va = none
  rest : ∀ va, n ≤ PGNUM va ∨ PGNUM va = PGNUM excStack → w'.entry c va = none

namespace Forked

variable {L L' : EnvPage → EnvPage → Prop} {w1 w2 : World} {n : Nat} {perm : Word} {m : Mapped}

/-- A page is mapped in `c`. -/
theorem give (h : Forked L X c n w w1) (hc : c ≠ w.self) (hva : PGNUM va = n)
    (hexc : n ≠ PGNUM excStack) (hm : w1.entry w.self va = some m) (hperm : perm &&& PTE_W = 0)
    (hwr : m.Writable → Mapped.Writable ⟨m.page, perm⟩)
    (hagain : Again w.self c va perm m w1 w2) (hsound : w2.Sound L') :
  Forked L' X c (n + 1) w w2
  := by
  constructor
  case sound => exact hsound
  case self => exact hagain.self.trans h.self
  case child => exact hagain.running
  case procs =>
    intro e he hec
    rw [hagain.procs e hec, h.procs e he hec]
  case mapped =>
    intro va' hva'
    rw [hagain.entries _ _ (fun hx => hc hx.1.symm), h.mapped va' hva']
  case keeps =>
    exact h.keeps.trans (Keeps.of_entry (fun va' => hagain.entries _ _ (fun hx => hc hx.1.symm)))
  case later => exact h.later.trans hagain.later
  case others =>
    intro e va' hec htemp hX
    rw [hagain.views _ _ (fun hx => hec hx.1), h.others e va' hec htemp hX]
  case copied =>
    intro va' hlt hun
    have htemp : PGNUM va' ≠ PGNUM PFTEMP := fun heq => hun (Or.inl heq)
    by_cases hn : PGNUM va' = n
    · have hnum := hn.trans hva.symm
      have hsome : w1.entry w.self va' = some m := by
        rw [← hm, World.entry, World.entry, hnum]
      constructor
      · rw [hagain.entry va' hnum, ← h.mapped va' htemp, hsome]
        rfl
      · intro hX
        rw [hagain.shows va' hnum]
        exact h.others _ _ (Ne.symm hc) (fun ht => htemp ht.2) (fun _ => hX)
    · have hne : ¬ (c = c ∧ PGNUM va' = PGNUM va) := fun hx => hn (hx.2.trans hva)
      rw [hagain.entries _ _ hne, hagain.views _ _ hne]
      exact h.copied va' (by omega) hun
  case may =>
    intro va' m' hlt hun hm' hwr'
    by_cases hn : PGNUM va' = n
    · have hnum := hn.trans hva.symm
      obtain ⟨m1, hm1, hkeeps⟩ := h.keeps.pages va' m' (fun heq => hun (Or.inl heq)) hm'
      have hsame : m1 = m := by
        rw [World.entry, hnum, ← World.entry, hm] at hm1
        exact (Option.some.inj hm1).symm
      exact ⟨_, hagain.entry va' hnum, hwr (hsame ▸ hkeeps.writable hwr')⟩
    · rw [hagain.entries _ _ (fun hx => hn (hx.2.trans hva))]
      exact h.may va' m' (by omega) hun hm' hwr'
  case readonly =>
    intro va' m' hm'
    by_cases hn : PGNUM va' = n
    · rw [hagain.entry va' (hn.trans hva.symm)] at hm'
      obtain rfl := Option.some.inj hm'
      exact hperm
    · rw [hagain.entries _ _ (fun hx => hn (hx.2.trans hva))] at hm'
      exact h.readonly va' m' hm'
  case temp =>
    intro va' htemp hnone
    by_cases hn : PGNUM va' = n
    · have hkept := h.keeps.temp va' htemp hnone
      rw [World.entry, hn.trans hva.symm, ← World.entry, hm] at hkept
      cases hkept
    · rw [hagain.entries _ _ (fun hx => hn (hx.2.trans hva))]
      exact h.temp va' htemp hnone
  case rest =>
    intro va' hva'
    have hn : PGNUM va' ≠ n := by
      obtain hle | heq := hva'
      · omega
      · exact fun hn => hexc (hn.symm.trans heq)
    rw [hagain.entries _ _ (fun hx => hn (hx.2.trans hva))]
    apply h.rest
    omega

/-- There is nothing to be mapped. -/
theorem skip (h : Forked L X c n w w1) (hc : c ≠ w.self)
    (hnone : ∀ va, PGNUM va = n → n ≠ PGNUM excStack → w1.entry w.self va = none) :
  Forked L X c (n + 1) w w1
  := by
  constructor
  case sound => exact h.sound
  case self => exact h.self
  case child => exact h.child
  case procs => exact h.procs
  case mapped => exact h.mapped
  case keeps => exact h.keeps
  case later => exact h.later
  case others => exact h.others
  case copied =>
    intro va hlt hun
    by_cases hn : PGNUM va = n
    · have htemp : PGNUM va ≠ PGNUM PFTEMP := fun heq => hun (Or.inl heq)
      have hparent := hnone va hn (fun heq => hun (Or.inr (hn.trans heq)))
      have hchild := h.rest va (Or.inl hn.ge)
      constructor
      · rw [← h.mapped va htemp, hparent, hchild]
      · intro hX
        have hview := h.others _ _ (Ne.symm hc) (fun ht => htemp ht.2) (fun _ => hX)
        rw [← hview, World.view, World.view, World.translate, World.translate, hparent, hchild]
    · exact h.copied va (by omega) hun
  case may =>
    intro va m hlt hun hm hwr
    by_cases hn : PGNUM va = n
    · obtain ⟨m1, hm1, -⟩ := h.keeps.pages va m (fun heq => hun (Or.inl heq)) hm
      rw [hnone va hn (fun heq => hun (Or.inr (hn.trans heq)))] at hm1
      cases hm1
    · exact h.may va m (by omega) hun hm hwr
  case readonly => exact h.readonly
  case temp => exact h.temp
  case rest =>
    intro va hva
    apply h.rest
    omega

/-- The running environment writes to its stack frame. -/
theorem touch (h : Forked L X c n w w1) (hc : c ≠ w.self) (hL : Lends L w.self c)
    (htouched : Touched L X w1 w2) :
  Forked L X c n w w2
  := by
  have hself := h.self
  have hprocs : w2.procs c = w1.procs c := htouched.procs c (hself ▸ hc)
  have hentry : ∀ va, w2.entry c va = w1.entry c va := by
    intro va
    rw [World.entry, World.entry, hprocs]
  have hothers := htouched.others
  have hmapped := htouched.mapped
  rw [hself] at hothers hmapped
  simp only [Temp, hself] at hothers
  constructor
  case sound => exact htouched.sound
  case self => exact htouched.self.trans hself
  case child =>
    rw [hprocs]
    exact h.child
  case procs =>
    intro e he hec
    rw [htouched.procs e (hself ▸ he), h.procs e he hec]
  case mapped =>
    intro va hva
    rw [hmapped va hva, h.mapped va hva]
  case keeps => exact h.keeps.trans (hself ▸ htouched.keeps)
  case later => exact h.later.trans htouched.later
  case others =>
    intro e va hec htemp hX
    rw [hothers e va htemp hX, h.others e va hec htemp hX]
    exact fun va' _ _ hl => hec (hL _ _ _ hl).1
  case copied =>
    intro va hlt hun
    obtain ⟨hsome, hview⟩ := h.copied va hlt hun
    constructor
    · rw [hentry, hsome]
    · intro hX
      rw [hothers c va (fun ht => hc ht.1) (fun heq => (hc heq).elim), hview hX]
      intro va' hX' hoff hl
      have hnum := (hL _ _ _ hl).2
      have heq : va = va' := by
        apply BitVec.eq_of_toNat_eq
        rw [PGNUM_eq, PGNUM_eq] at hnum
        rw [PGOFF_eq, PGOFF_eq] at hoff
        omega
      exact hX (heq ▸ hX')
  case may =>
    intro va m hlt hun hm hwr
    rw [hentry]
    exact h.may va m hlt hun hm hwr
  case readonly =>
    intro va m hm
    rw [hentry] at hm
    exact h.readonly va m hm
  case temp =>
    intro va htemp hnone
    rw [hentry]
    exact h.temp va htemp hnone
  case rest =>
    intro va hva
    rw [hentry]
    exact h.rest va hva

/-- A page of the running environment is protected. -/
theorem protect (h : Forked L X c n w w1) (hc : c ≠ w.self)
    (hm : w1.entry w.self va = some m) (hexc : PGNUM va ≠ PGNUM excStack)
    (hwr : Mapped.Writable ⟨m.page, perm⟩)
    (hagain : Again w.self w.self va perm m w1 w2) (hsound : w2.Sound L') :
  Forked L' X c n w w2
  := by
  have hne : ∀ va', ¬ (c = w.self ∧ PGNUM va' = PGNUM va) := fun _ hx => hc hx.1
  have hviews : ∀ e va', w2.view e va' = w1.view e va' := by
    intro e va'
    by_cases hx : e = w.self ∧ PGNUM va' = PGNUM va
    · obtain ⟨rfl, hnum⟩ := hx
      exact hagain.shows va' hnum
    · exact hagain.views e va' hx
  constructor
  case sound => exact hsound
  case self => exact hagain.self.trans h.self
  case child =>
    rw [hagain.procs c hc]
    exact h.child
  case procs =>
    intro e he hec
    rw [hagain.procs e he, h.procs e he hec]
  case mapped =>
    intro va' hva'
    rw [← h.mapped va' hva']
    by_cases hnum : PGNUM va' = PGNUM va
    · have hsome : w1.entry w.self va' = some m := by
        rw [← hm, World.entry, World.entry, hnum]
      rw [hagain.entry va' hnum, hsome]
      rfl
    · rw [hagain.entries _ _ (fun hx => hnum hx.2)]
  case keeps =>
    apply h.keeps.trans
    apply Keeps.of_page va ⟨m.page, perm⟩ hagain.entry
    · exact fun va' hva' => Or.inl (hagain.entries _ _ (fun hx => hva' hx.2))
    · exact fun va' m' hva' _ => ⟨fun _ => hwr, fun hno => (hexc (hva'.symm.trans hno)).elim⟩
    · intro _ hnone
      rw [hm] at hnone
      cases hnone
  case later => exact h.later.trans hagain.later
  case others =>
    intro e va' hec htemp hX
    rw [hviews, h.others e va' hec htemp hX]
  case copied =>
    intro va' hlt hun
    rw [hagain.entries _ _ (hne va'), hviews]
    exact h.copied va' hlt hun
  case may =>
    intro va' m' hlt hun hm' hwr'
    rw [hagain.entries _ _ (hne va')]
    exact h.may va' m' hlt hun hm' hwr'
  case readonly =>
    intro va' m' hm'
    rw [hagain.entries _ _ (hne va')] at hm'
    exact h.readonly va' m' hm'
  case temp =>
    intro va' htemp hnone
    rw [hagain.entries _ _ (hne va')]
    exact h.temp va' htemp hnone
  case rest =>
    intro va' hva'
    rw [hagain.entries _ _ (hne va')]
    exact h.rest va' hva'

end Forked

/-! ### The loop -/

/-- Nothing is lent. -/
abbrev Nothing : EnvPage → EnvPage → Prop :=
  fun _ _ => False

theorem lends_nothing (s c : Word) :
  Lends Nothing s c
  := fun _ _ _ h => h.elim

theorem lends_lent (s c va : Word) :
  Lends (Sharing.Lent (envPage s va) (envPage c va)) s c
  := by
  rintro va1 e va2 ⟨h1, h2⟩
  obtain ⟨-, hnum1⟩ := envPage_eq.mp h1
  obtain ⟨he, hnum2⟩ := envPage_eq.mp h2
  exact ⟨he, hnum2.trans hnum1.symm⟩

theorem PGNUM_pageVa {n : Nat} (hn : n < UTOP / PGSIZE) :
  PGNUM (pageVa n) = n
  := by
  rw [PGNUM_eq, pageVa, BitVec.toNat_ofNat]
  simp only [PGSIZE] at hn ⊢
  have hlt : UTOP / 4096 ≤ 2 ^ 20 := by decide
  omega

namespace Forked

variable {m : Mapped} {n : Nat} {w0 : World}

/-- The permissions of a page that is shared. -/
theorem shared_perm :
  (PTE_COW ||| PTE_P ||| PTE_U) &&& PTE_U = PTE_U
    ∧ ∀ p, Mapped.Writable ⟨p, PTE_COW ||| PTE_P ||| PTE_U⟩
  := by
  have hbit : (PTE_COW ||| PTE_P ||| PTE_U) &&& PTE_COW ≠ 0 := by decide
  exact ⟨by decide, fun _ => Or.inr hbit⟩

/-- A page that may be written is shared with `c`. Until it is protected it is lent. -/
theorem lend (h : Forked Nothing X c n w0 w) (hc : c ≠ w0.self) (hnum : PGNUM va = n)
    (hexc : n ≠ PGNUM excStack) (hm : w.entry w0.self va = some m) :
  Forked (Sharing.Lent (envPage w0.self va) (envPage c va)) X c (n + 1) w0
    (w.askedTable.setEntry c va (some ⟨m.page, PTE_COW ||| PTE_P ||| PTE_U⟩))
  := by
  obtain ⟨huser, hcow⟩ := shared_perm
  have hagain := again h.sound.toPlain hm h.child huser
  have hmaps : w.sharing.maps (envPage w0.self va) = some (m.page, m.frame.2) := by
    rw [sharing_maps, hm]
    rfl
  apply h.give hc hnum hexc hm (by decide) (fun _ => hcow m.page) hagain
  refine ⟨hagain.plain, ?_⟩
  rw [hagain.sharing, Mapped.frame_readonly _ (by decide)]
  exact Sharing.Exclusive.lend h.sound.apart hmaps _

/-- A page that is lent is protected. -/
theorem unlend (h : Forked (Sharing.Lent (envPage w0.self va) (envPage c va)) X c n w0 w)
    (hc : c ≠ w0.self) (hexc : PGNUM va ≠ PGNUM excStack) (hm : w.entry w0.self va = some m) :
  Forked Nothing X c n w0
    (w.askedTable.setEntry w0.self va (some ⟨m.page, PTE_COW ||| PTE_P ||| PTE_U⟩))
  := by
  obtain ⟨huser, hcow⟩ := shared_perm
  have hrun : (w.procs w0.self).isSome := h.self ▸ h.sound.wf.running
  have hagain := again h.sound.toPlain hm hrun huser
  have hmaps : w.sharing.maps (envPage w0.self va) = some (m.page, m.frame.2) := by
    rw [sharing_maps, hm]
    rfl
  refine h.protect hc hm hexc (hcow m.page) hagain ⟨hagain.plain, ?_⟩
  rw [hagain.sharing, Mapped.frame_readonly _ (by decide)]
  exact Sharing.Apart.protect h.sound.apart hmaps

/-- A page that nobody may write is mapped in `c` as well. -/
theorem share (h : Forked Nothing X c n w0 w) (hc : c ≠ w0.self) (hnum : PGNUM va = n)
    (hexc : n ≠ PGNUM excStack) (hm : w.entry w0.self va = some m) (hwr : ¬ m.Writable) :
  Forked Nothing X c (n + 1) w0
    (w.askedTable.setEntry c va (some ⟨m.page, PTE_P ||| PTE_U⟩))
  := by
  have huser : (PTE_P ||| PTE_U) &&& PTE_U = PTE_U := by decide
  have hperm : m.perm &&& PTE_W = 0 := not_not.mp (fun hno => hwr (Or.inl hno))
  have hagain := again h.sound.toPlain hm h.child huser
  have hmaps : w.sharing.maps (envPage w0.self va) = some (m.page, false) := by
    rw [sharing_maps, hm]
    exact congrArg some (Mapped.frame_readonly m.page hperm)
  refine h.give hc hnum hexc hm (by decide) (fun hno => (hwr hno).elim) hagain ⟨hagain.plain, ?_⟩
  rw [hagain.sharing, Mapped.frame_readonly _ (by decide)]
  exact Sharing.Exclusive.share h.sound.apart hmaps _

end Forked

section Loop

variable (l : Linked) {f : Family} {n : Nat} {w0 : World}

/-- `duppage` maps one more page, if it goes on. -/
theorem duppage_any {between : List (Word × Byte)} (h : Forked Nothing X c n w0 f.world)
    (hc0 : c ≠ 0) (hc : c ≠ w0.self) (hn : n < UTOP / PGSIZE) (hexc : n ≠ PGNUM excStack)
    (hbetween : ∀ x ∈ between, X x.1 ∧ PGNUM x.1 ≠ PGNUM PFTEMP) :
  (duppage l c n between).EndsOr (fun _ => True) f
    (fun _ f' => f'.upcall = f.upcall ∧ Forked Nothing X c (n + 1) w0 f'.world)
  := by
  have hnum := PGNUM_pageVa hn
  obtain ⟨va, hva⟩ : ∃ va, va = pageVa n := ⟨_, rfl⟩
  rw [← hva] at hnum
  have hself := h.self
  have hself0 : f.world.self ≠ 0 := h.sound.wf.self_ne
  have hkey : ∀ w1 : World, w1.key w0.self = w0.self ∧ w1.key c = c := by
    intro w1
    rw [World.key, World.key, if_neg hc0, if_neg (hself ▸ hself0)]
    exact ⟨rfl, rfl⟩
  simp only [duppage, sys, ← hva]
  rw [endsOr_bind, endsOr_zoom, uvptFlags, endsOr_bind, endsOr_get, endsOr_pure, endsOr_ite]
  constructor
  · -- the page is shared, and may not be written any more
    intro _
    rw [endsOr_bind, endsOr_zoom, sysGetenvid, endsOr_bind, endsOr_get, endsOr_pure, endsOr_bind,
      endsOr_zoom, hself]
    apply sysPageMap_any.mono
    intro r w1 h1
    apply check_any trivial
    intro hr
    obtain ⟨-, -, m, hm, rfl⟩ := h1 hr
    rw [(hkey _).1] at hm
    rw [(hkey _).2]
    have hgiven := h.lend hc hnum hexc hm
    rw [endsOr_bind]
    apply (writes_any l (f := ⟨_, f.upcall⟩) hgiven.sound hbetween).mono
    rintro _ f2 ⟨hup, htouched⟩
    have hforked := hgiven.touch hc (lends_lent _ _ _) htouched
    rw [endsOr_bind, endsOr_zoom]
    apply sysPageMap_any.mono
    intro r w3 h3
    apply check_any trivial
    intro hr
    obtain ⟨-, -, m3, hm3, rfl⟩ := h3 hr
    rw [(hkey _).1] at hm3 ⊢
    rw [endsOr_pure]
    exact ⟨hup, hforked.unlend hc (fun heq => hexc (hnum.symm.trans heq)) hm3⟩
  · -- nobody may write the page
    intro hro
    rw [endsOr_bind, endsOr_zoom, sysGetenvid, endsOr_bind, endsOr_get, endsOr_pure, endsOr_bind,
      endsOr_zoom, hself]
    apply sysPageMap_any.mono
    intro r w1 h1
    apply check_any trivial
    intro hr
    obtain ⟨-, -, m, hm, rfl⟩ := h1 hr
    rw [(hkey _).1] at hm
    rw [(hkey _).2]
    rw [hself, hm] at hro
    rw [endsOr_pure]
    exact ⟨rfl, h.share hc hnum hexc hm hro⟩

/-- The body of the loop of `fork`, if it goes on. -/
theorem forkPage_any {frame : Frame} (h : Forked Nothing X c n w0 f.world) (hc0 : c ≠ 0)
    (hc : c ≠ w0.self) (hn : n < UTOP / PGSIZE)
    (hbetween : ∀ x ∈ frame.between n, X x.1 ∧ PGNUM x.1 ≠ PGNUM PFTEMP)
    (hafter : ∀ x ∈ frame.after n, X x.1 ∧ PGNUM x.1 ≠ PGNUM PFTEMP) :
  (forkPage l c frame n).EndsOr (fun _ => True) f
    (fun _ f' => f'.upcall = f.upcall ∧ Forked Nothing X c (n + 1) w0 f'.world)
  := by
  have hwrites : ∀ f1 : Family, f1.upcall = f.upcall → Forked Nothing X c (n + 1) w0 f1.world →
      (writes l (frame.after n)).EndsOr (fun _ => True) f1
        (fun _ f' => f'.upcall = f.upcall ∧ Forked Nothing X c (n + 1) w0 f'.world) := by
    intro f1 hup hforked
    apply (writes_any l hforked.sound hafter).mono
    rintro _ f2 ⟨hup', htouched⟩
    exact ⟨hup'.trans hup, hforked.touch hc (lends_nothing _ _) htouched⟩
  have hstack : n * PGSIZE = UXSTACKTOP - PGSIZE ↔ n = PGNUM excStack := by
    have hexc : PGNUM excStack = (UXSTACKTOP - PGSIZE) / PGSIZE := by decide
    have hdvd : UXSTACKTOP - PGSIZE = (UXSTACKTOP - PGSIZE) / PGSIZE * PGSIZE := by decide
    have hpos : 0 < PGSIZE := by decide
    rw [hexc]
    constructor
    · intro heq
      rw [hdvd] at heq
      exact Nat.eq_of_mul_eq_mul_right hpos heq
    · intro heq
      rw [hdvd, heq]
  rw [forkPage, endsOr_bind, sys, endsOr_zoom, mapped, endsOr_bind, endsOr_get, endsOr_pure]
  simp only
  split
  case isTrue hcond =>
    obtain ⟨-, hne⟩ := hcond
    rw [endsOr_bind]
    apply (duppage_any l h hc0 hc hn (fun heq => hne (hstack.mpr heq)) hbetween).mono
    rintro _ f1 ⟨hup, hforked⟩
    exact hwrites f1 hup hforked
  case isFalse hcond =>
    apply hwrites f rfl
    apply h.skip hc
    intro va hva hexc
    cases hm : f.world.entry w0.self va with
    | none => rfl
    | some m =>
        have hsome : f.world.entry w0.self (pageVa n) = some m := by
          rw [← hm, World.entry, World.entry, PGNUM_pageVa hn, hva]
        rw [h.self, hsome] at hcond
        exact (hcond ⟨rfl, fun heq => hexc (hstack.mp heq)⟩).elim

end Loop

/-! ### Before the loop -/

/-- A memory after a byte was written to it. -/
def put (v : View) (x : Word × Byte) : View :=
  Function.update v x.1 (some x.2)

/-- A memory after bytes were written to it, one after the other. -/
def puts (v : View) : List (Word × Byte) → View
  | [] => v
  | x :: ws => puts (put v x) ws

theorem put_self (v : View) (x : Word × Byte) :
  put v x x.1 = some x.2
  := by rw [put, Function.update_self]

theorem put_of_ne {v : View} {x : Word × Byte} (h : va ≠ x.1) :
  put v x va = v va
  := by rw [put, Function.update_of_ne h]

/-- What is written does not depend on what was there. -/
theorem puts_congr {v v' : View} {ws : List (Word × Byte)} (h : v va = v' va) :
  puts v ws va = puts v' ws va
  := by
  induction ws generalizing v v' with
  | nil => exact h
  | cons x ws ih =>
      apply ih
      by_cases heq : va = x.1
      · rw [heq, put_self, put_self]
      · rw [put_of_ne heq, put_of_ne heq, h]

/-- From `w` to `w'` the running environment wrote `ws`. -/
structure Stored (ws : List (Word × Byte)) (w w' : World) : Prop where
  sound : w'.Sound Nothing
  self : w'.self = w.self
  procs : ∀ e, e ≠ w.self → w'.procs e = w.procs e
  mapped : ∀ va, PGNUM va ≠ PGNUM PFTEMP →
    (w'.entry w.self va).isSome = (w.entry w.self va).isSome
  keeps : Keeps w.self w w'
  later : Later w w'
  mine : ∀ va, PGNUM va ≠ PGNUM PFTEMP → w'.view w.self va = puts (w.view w.self) ws va
  others : ∀ e va, e ≠ w.self → w'.view e va = w.view e va

section Before

variable (l : Linked) {f : Family}

theorem writes_stored {ws : List (Word × Byte)} (h : f.world.Sound Nothing)
    (hws : ∀ x ∈ ws, PGNUM x.1 ≠ PGNUM PFTEMP) :
  (writes l ws).EndsOr (fun _ => True) f
    (fun _ f' => f'.upcall = f.upcall ∧ Stored ws f.world f'.world)
  := by
  induction ws generalizing f with
  | nil =>
      rw [writes, endsOr_pure]
      exact ⟨rfl, h, rfl, fun _ _ => rfl, fun _ _ => rfl, Keeps.of_entry (fun _ => rfl),
        Later.refl f.world, fun _ _ => rfl, fun _ _ _ => rfl⟩
  | cons x ws ih =>
      rw [writes, endsOr_bind]
      apply (write_any l h (hws x (List.mem_cons_self ..)) x.2).mono
      rintro _ f1 ⟨hup, hwrote⟩
      apply (ih hwrote.sound (fun y hy => hws y (List.mem_cons_of_mem x hy))).mono
      rintro _ f2 ⟨hup', hstored⟩
      refine ⟨hup'.trans hup, ?_⟩
      have hself := hwrote.self
      have hmapped := hstored.mapped
      have hmine := hstored.mine
      rw [hself] at hmapped hmine
      constructor
      case sound => exact hstored.sound
      case self => exact hstored.self.trans hself
      case procs =>
        intro e he
        rw [hstored.procs e (hself ▸ he), hwrote.procs e he]
      case mapped =>
        intro va hva
        rw [hmapped va hva, hwrote.mapped va hva]
      case keeps => exact hwrote.keeps.trans (hself ▸ hstored.keeps)
      case later => exact hwrote.later.trans hstored.later
      case mine =>
        intro va hva
        rw [hmine va hva]
        apply puts_congr
        by_cases heq : va = x.1
        · rw [heq, hwrote.written, put_self]
        · rw [put_of_ne heq]
          exact hwrote.others _ _ (fun ht => hva ht.2) (fun hx => heq hx.2) (fun hl => hl.1)
      case others =>
        intro e va he
        rw [hstored.others e va (hself ▸ he)]
        exact hwrote.others _ _ (fun ht => he ht.1) (fun hx => he hx.1) (fun hl => hl.1)

/-- A page is mapped that nobody mapped before. -/
structure Alloced (e va perm : Word) (w w' : World) : Prop where
  plain : w'.Plain
  apart : w.sharing.Apart Nothing → w'.sharing.Apart Nothing
  self : w'.self = w.self
  running : (w'.procs e).isSome
  procs : ∀ x, x ≠ e → w'.procs x = w.procs x
  entry : ∀ va', PGNUM va' = PGNUM va → w'.entry e va' = some ⟨w.next, perm⟩
  entries : ∀ x va', ¬ (x = e ∧ PGNUM va' = PGNUM va) → w'.entry x va' = w.entry x va'
  shows : ∀ va', PGNUM va' = PGNUM va → w'.view e va' = some 0
  views : ∀ x va', ¬ (x = e ∧ PGNUM va' = PGNUM va) → w'.view x va' = w.view x va'
  later : Later w w'

theorem alloced {perm : Word} (h : w.Plain) (he : (w.procs e).isSome)
    (hperm : perm &&& PTE_U = PTE_U) :
  Alloced e va perm w (w.asked.alloc e va perm)
  := by
  have hplain : (w.asked.alloc e va perm).Plain := h.asked.alloc hperm
  have hfresh := h.wf.fresh_next
  have hsh : (w.asked.alloc e va perm).sharing
      = (w.sharing.map (envPage e va) (some (Mapped.frame ⟨w.next, perm⟩))).write w.next
        (fun _ => 0) := sharing_alloc (w := w.asked) he perm
  constructor
  case plain => exact hplain
  case apart =>
    intro hapart
    rw [hsh]
    exact (hapart.map_fresh hfresh _ _).write _ _
  case self => rfl
  case running =>
    have hset := @isSome_setEntry w.asked e va e (some ⟨w.next, perm⟩)
    exact hset.trans he
  case procs => exact fun x hx => procs_setEntry_of_ne hx _
  case entry => exact fun va' hva' => entry_setEntry (w := w.asked) he hva' _
  case entries => exact fun x va' hne => entry_setEntry_of_ne (fun h1 h2 => hne ⟨h1, h2⟩) _
  case shows =>
    intro va' hva'
    have hpage : envPage e va' = envPage e va := envPage_eq.mpr ⟨rfl, hva'⟩
    rw [hplain.view_eq, hsh, hpage, Mapped.frame, Sharing.view_write_self (Sharing.map_maps_self _)]
    rfl
  case views =>
    intro x va' hne
    have hpage : envPage x va' ≠ envPage e va := fun heq => hne (envPage_eq.mp heq)
    rw [hplain.view_eq, h.view_eq, hsh, Sharing.view, Sharing.view, Sharing.write_maps,
      Sharing.map_maps_of_ne hpage]
    cases hm : w.sharing.maps (envPage x va') with
    | none => rfl
    | some m =>
        have hne' : m.1 ≠ w.next := by
          rintro heq
          exact hfresh _ m.2 (hm.trans (by rw [← heq]))
        rw [Option.map_some, Option.map_some, Sharing.write_mem_of_ne hne', Sharing.map_mem]
        rfl
  case later => exact ⟨⟨1, fun _ => rfl⟩, ⟨0, fun _ => rfl⟩⟩

/-! ### All of `fork` -/

/-- The world with one more environment. -/
def World.create (w : World) (r : Word) (p : Proc) : World :=
  { w with procs := Function.update w.procs r (some p) }

/-- An environment that maps nothing changes no mapping. -/
theorem entry_create {r : Word} {p : Proc} (hr : w.procs r = none) (hp : ∀ pn, p.maps pn = none) :
  (w.create r p).entry = w.entry
  := by
  funext e va
  rw [World.entry, World.entry, World.create]
  by_cases he : e = r
  · subst he
    simp only [Function.update_self, hr, Option.bind_some, Option.bind_none, hp]
  · simp only [Function.update_of_ne he]

/-- What is not a mapping does not matter. -/
theorem sound_congr {L : EnvPage → EnvPage → Prop} (hentry : w'.entry = w.entry)
    (hmem : w'.mem = w.mem) (hnext : w'.next = w.next) (hself : w'.self = w.self)
    (hrun : (w'.procs w.self).isSome) :
  (w.Sound L → w'.Sound L) ∧ w'.view = w.view
  := by
  have hsh : w'.sharing = w.sharing := by
    apply Sharing.ext
    · funext a
      obtain ⟨va, ha⟩ := exists_envPage a
      rw [← ha, sharing_maps, sharing_maps, hentry]
    · simp only [World.sharing, hmem]
  constructor
  · intro h
    constructor
    case toPlain =>
      refine ⟨⟨hself ▸ h.wf.self_ne, hself ▸ hrun, ?_⟩, ?_⟩
      · rw [hentry, hnext]
        exact h.wf.fresh
      · rw [hentry]
        exact h.user
    case apart =>
      rw [hsh]
      exact h.apart
  · funext e va
    rw [World.view, World.view, World.translate, World.translate, hentry, hmem]

theorem isSome_create {r : Word} (p : Proc) (e : Word) (he : (w.procs e).isSome ∨ e = r) :
  ((w.create r p).procs e).isSome
  := by
  rw [World.create]
  by_cases her : e = r
  · subst her
    simp only [Function.update_self, Option.isSome_some]
  · simp only [Function.update_of_ne her]
    exact he.resolve_right her

/-- A new environment that maps nothing. -/
structure Created (r : Word) (f f' : Family) : Prop where
  new : f.world.procs r = none
  ne_zero : r ≠ 0
  self : f'.world.self = f.world.self
  running : (f'.world.procs r).isSome
  procs : ∀ e, e ≠ r → f'.world.procs e = f.world.procs e
  entry : f'.world.entry = f.world.entry
  sound : f.world.Sound Nothing → f'.world.Sound Nothing
  views : f'.world.view = f.world.view
  upcalls : f'.upcall = Function.update f.upcall r 0
  later : Later f.world f'.world

theorem created {r : Word} {p : Proc} (hr0 : r ≠ 0) (hr : f.world.procs r = none)
    (hp : ∀ pn, p.maps pn = none) :
  Created r f ⟨f.world.asked.create r p, Function.update f.upcall r 0⟩
  := by
  have hentry : (f.world.asked.create r p).entry = f.world.entry :=
    entry_create (w := f.world.asked) hr hp
  constructor
  case new => exact hr
  case ne_zero => exact hr0
  case self => rfl
  case running => exact isSome_create p r (Or.inr rfl)
  case procs => exact fun e he => Function.update_of_ne he _ _
  case entry => exact hentry
  case sound =>
    intro h
    exact (sound_congr hentry rfl rfl rfl (isSome_create p _ (Or.inl h.wf.running))).1 h
  case views =>
    funext e va
    rw [World.view, World.view, World.translate, World.translate, hentry]
    rfl
  case upcalls => rfl
  case later => exact ⟨⟨1, fun _ => rfl⟩, ⟨0, fun _ => rfl⟩⟩

theorem sysExofork_any :
  sysExofork.EndsOr (fun _ => True) w (fun r w' => isError r = false →
    r ≠ 0 ∧ w.procs r = none ∧ ∃ p : Proc, (∀ pn, p.maps pn = none) ∧ w' = w.asked.create r p)
  := by
  rw [sysExofork, endsOr_bind, request, endsOr_bind, endsOr_get, endsOr_bind, endsOr_set,
    endsOr_pure, endsOr_bind, endsOr_get, endsOr_ite]
  constructor
  · intro hr
    exact refused_any hr
  · intro _
    rw [endsOr_ite]
    constructor
    · intro _
      exact refused_any (by decide)
    · intro hno
      rw [endsOr_bind, endsOr_set, endsOr_pure]
      intro _
      simp only [not_or, Option.not_isSome_iff_eq_none] at hno
      exact ⟨hno.1, hno.2, _, fun _ => rfl, rfl⟩

theorem exofork_any :
  exofork.EndsOr (fun _ => True) f (fun r f' => isError r = false → Created r f f')
  := by
  rw [exofork, endsOr_bind, sys, endsOr_zoom]
  apply sysExofork_any.mono
  intro r w1 h1
  rw [endsOr_ite]
  constructor
  · intro hr
    rw [endsOr_pure]
    intro hr'
    rw [hr] at hr'
    cases hr'
  · intro hr
    obtain ⟨hr0, hnone, p, hp, rfl⟩ := h1 (Bool.not_eq_true _ ▸ hr)
    rw [endsOr_bind, endsOr_modify, endsOr_pure]
    exact fun _ => created hr0 hnone hp

theorem sysEnvSetPgfaultUpcall_any {envid func : Word} :
  (sysEnvSetPgfaultUpcall envid func).EndsOr (fun _ => True) f (fun r f' => isError r = false →
    func ≠ 0 ∧ f' = ⟨f.world, Function.update f.upcall (f.world.key envid) func⟩)
  := by
  rw [sysEnvSetPgfaultUpcall, endsOr_bind, endsOr_get, endsOr_ite]
  constructor
  · intro _
    rw [endsOr_pure]
    exact fun hr => by cases hr
  · intro _
    rw [endsOr_ite]
    constructor
    · intro _
      rw [endsOr_pure]
      exact fun hr => by cases hr
    · intro hfunc
      rw [endsOr_bind, endsOr_set, endsOr_pure]
      exact fun _ => ⟨hfunc, rfl⟩

/-- From `f` to `f'` the running environment had its page faults handled. -/
structure Prepared (f f' : Family) : Prop where
  sound : f'.world.Sound Nothing
  self : f'.world.self = f.world.self
  procs : ∀ e, e ≠ f.world.self → f'.world.procs e = f.world.procs e
  mapped : ∀ va, ¬ Uncopied va →
    (f'.world.entry f.world.self va).isSome = (f.world.entry f.world.self va).isSome
  keeps : Keeps f.world.self f.world f'.world
  later : Later f.world f'.world
  mine : ∀ va, ¬ Uncopied va → f'.world.view f.world.self va
    = puts (f.world.view f.world.self) (wordBytes l.handler l.pgfault) va
  others : ∀ e va, e ≠ f.world.self → f'.world.view e va = f.world.view e va
  upcalls : ∀ e, e ≠ f.world.self → f'.upcall e = f.upcall e

theorem setPgfaultHandler_any (h : f.world.Sound Nothing)
    (hl : ∀ x ∈ wordBytes l.handler l.pgfault, PGNUM x.1 ≠ PGNUM PFTEMP) :
  (setPgfaultHandler l).EndsOr (fun _ => True) f (fun _ f' => Prepared l f f')
  := by
  rw [setPgfaultHandler, endsOr_bind, sys, endsOr_zoom]
  apply load32_any.mono
  rintro handler _ rfl
  rw [endsOr_ite]
  constructor
  · -- the exception stack is new
    intro _
    rw [endsOr_bind, sys, endsOr_zoom, sysGetenvid, endsOr_bind, endsOr_get, endsOr_pure,
      endsOr_bind, sys, endsOr_zoom]
    apply sysPageAlloc_any.mono
    intro r w1 h1
    apply check_any trivial
    intro hr
    obtain ⟨hrun, rfl⟩ := h1 hr
    rw [endsOr_bind]
    apply sysEnvSetPgfaultUpcall_any.mono
    intro r f2 h2
    apply check_any trivial
    intro hr
    obtain ⟨-, rfl⟩ := h2 hr
    have hkey : f.world.key f.world.self = f.world.self := by
      rw [World.key, if_neg h.wf.self_ne]
    rw [hkey] at hrun ⊢
    have halloc : Alloced f.world.self excStack (PTE_U ||| PTE_P ||| PTE_W) f.world _ :=
      alloced h.toPlain hrun (by decide)
    apply (writes_stored l ⟨halloc.plain, halloc.apart h.apart⟩ hl).mono
    rintro _ f3 ⟨hup, hstored⟩
    have hne : ∀ va, ¬ Uncopied va → ¬ (f.world.self = f.world.self ∧ PGNUM va = PGNUM excStack) :=
      fun va hun hx => hun (Or.inr hx.2)
    constructor
    case sound => exact hstored.sound
    case self => exact hstored.self
    case procs =>
      intro e he
      exact (hstored.procs e he).trans (halloc.procs e he)
    case mapped =>
      intro va hun
      refine (hstored.mapped va (fun heq => hun (Or.inl heq))).trans ?_
      exact congrArg Option.isSome (halloc.entries _ _ (hne va hun))
    case keeps =>
      have hstack : Keeps f.world.self f.world
          (f.world.asked.alloc f.world.self excStack (PTE_U ||| PTE_P ||| PTE_W)) := by
        apply Keeps.of_page excStack _ halloc.entry
        · exact fun va hva => Or.inl (halloc.entries _ _ (fun hx => hva hx.2))
        · intro va m _ _
          have hbit : (PTE_U ||| PTE_P ||| PTE_W) &&& PTE_W ≠ 0 := by decide
          exact Mapped.Keeps.of_writable hbit
        · exact fun hno => absurd hno (by decide)
      exact hstack.trans hstored.keeps
    case later => exact halloc.later.trans hstored.later
    case mine =>
      intro va hun
      refine (hstored.mine va (fun heq => hun (Or.inl heq))).trans ?_
      exact puts_congr (halloc.views _ _ (hne va hun))
    case others =>
      intro e va he
      exact (hstored.others e va he).trans (halloc.views _ _ (fun hx => he hx.1))
    case upcalls =>
      intro e he
      rw [hup]
      have hkey' : World.key (f.world.asked.alloc f.world.self excStack
          (PTE_U ||| PTE_P ||| PTE_W)) f.world.self = f.world.self := hkey
      exact Function.update_of_ne (hkey'.symm ▸ he) _ _
  · intro _
    apply (writes_stored l h hl).mono
    rintro _ f3 ⟨hup, hstored⟩
    constructor
    case sound => exact hstored.sound
    case self => exact hstored.self
    case procs => exact hstored.procs
    case mapped => exact fun va hun => hstored.mapped va (fun heq => hun (Or.inl heq))
    case keeps => exact hstored.keeps
    case later => exact hstored.later
    case mine => exact fun va hun => hstored.mine va (fun heq => hun (Or.inl heq))
    case others => exact hstored.others
    case upcalls => exact fun e _ => congrFun hup e

/-- From `f` to `f'` the environment `c` was made ready to run. -/
structure Finished (c : Word) (f f' : Family) : Prop where
  sound : f'.world.Sound Nothing
  self : f'.world.self = f.world.self
  procs : ∀ e, e ≠ c → f'.world.procs e = f.world.procs e
  stack : ∀ va, PGNUM va = PGNUM excStack →
    f'.world.entry c va = some ⟨f.world.next, PTE_P ||| PTE_W ||| PTE_U⟩
    ∧ f'.world.view c va = some 0
  entries : ∀ e va, ¬ (e = c ∧ PGNUM va = PGNUM excStack) →
    f'.world.entry e va = f.world.entry e va
  views : ∀ e va, ¬ (e = c ∧ PGNUM va = PGNUM excStack) → f'.world.view e va = f.world.view e va
  runnable : ∃ p, f'.world.procs c = some p ∧ p.status = .ENV_RUNNABLE
  upcalls : f'.upcall = Function.update f.upcall c (f.upcall f.world.self)
  upcall : f.upcall f.world.self ≠ 0
  later : Later f.world f'.world

/-- The status of an environment is set. -/
theorem sysEnvSetStatus_any {envid status : Word} :
  (sysEnvSetStatus envid status).EndsOr (fun _ => True) w (fun r w' => isError r = false →
    ∃ st p, statusOfWord status = some st ∧ w.procs (w.key envid) = some p
      ∧ w' = w.create (w.key envid) { p with status := st })
  := by
  rw [sysEnvSetStatus]
  cases hst : statusOfWord status with
  | none => exact refused_any (by decide)
  | some st =>
      simp only
      rw [endsOr_bind, endsOr_get]
      cases hfind : w.find envid with
      | none => exact refused_any (by decide)
      | some p =>
          simp only
          rw [endsOr_bind, endsOr_set, endsOr_pure]
          exact fun _ => ⟨st, p, rfl, hfind, rfl⟩

/-- The status is not a mapping. -/
theorem status_entry {r : Word} {p : Proc} (hr : w.procs r = some p) (st : EnvStatus) :
  (w.create r { p with status := st }).entry = w.entry
  := by
  funext e va
  rw [World.entry, World.entry, World.create]
  by_cases he : e = r
  · subst he
    simp only [Function.update_self, hr, Option.bind_some]
  · simp only [Function.update_of_ne he]

theorem forkFinish_any (h : f.world.Sound Nothing) (hc0 : c ≠ 0) :
  (forkFinish c).EndsOr (fun _ => True) f (fun _ f' => Finished c f f')
  := by
  have hkey : ∀ w1 : World, w1.key c = c := by
    intro w1
    rw [World.key, if_neg hc0]
  rw [forkFinish, endsOr_bind, sys, endsOr_zoom]
  apply sysPageAlloc_any.mono
  intro r w1 h1
  apply check_any trivial
  intro hr
  obtain ⟨hrun, rfl⟩ := h1 hr
  rw [hkey] at hrun ⊢
  rw [endsOr_bind, endsOr_get, endsOr_bind]
  apply sysEnvSetPgfaultUpcall_any.mono
  intro r f2 h2
  apply check_any trivial
  intro hr
  obtain ⟨hup, rfl⟩ := h2 hr
  rw [endsOr_bind, sys, endsOr_zoom]
  apply sysEnvSetStatus_any.mono
  intro r w3 h3
  apply check_any trivial
  intro hr
  obtain ⟨st, p, hst, hp, rfl⟩ := h3 hr
  rw [endsOr_pure]
  rw [hkey] at hp ⊢
  have halloc : Alloced c excStack (PTE_P ||| PTE_W ||| PTE_U) f.world _ :=
    alloced h.toPlain hrun (by decide)
  have hentry := status_entry hp st
  obtain ⟨hsound, hview⟩ := sound_congr (L := Nothing) hentry rfl rfl rfl
    (isSome_create { p with status := st } f.world.self (by
      by_cases hc : f.world.self = c
      · exact Or.inr hc
      · left
        have hprocs : (f.world.asked.alloc c excStack (PTE_P ||| PTE_W ||| PTE_U)).procs f.world.self
          = f.world.procs f.world.self := halloc.procs _ hc
        exact hprocs ▸ h.wf.running))
  have hst' : st = .ENV_RUNNABLE := by
    have hrunnable : statusOfWord 2 = some .ENV_RUNNABLE := rfl
    exact Option.some.inj (hst.symm.trans hrunnable)
  constructor
  case sound => exact hsound ⟨halloc.plain, halloc.apart h.apart⟩
  case self => rfl
  case procs =>
    intro e he
    exact (Function.update_of_ne he _ _).trans (halloc.procs e he)
  case stack =>
    intro va hva
    constructor
    · exact (congrFun (congrFun hentry c) va).trans (halloc.entry va hva)
    · exact (congrFun (congrFun hview c) va).trans (halloc.shows va hva)
  case entries =>
    intro e va hne
    exact (congrFun (congrFun hentry e) va).trans (halloc.entries e va hne)
  case views =>
    intro e va hne
    exact (congrFun (congrFun hview e) va).trans (halloc.views e va hne)
  case runnable => exact ⟨_, Function.update_self c _ _, hst'⟩
  case upcalls => rfl
  case upcall => exact hup
  case later => exact ⟨⟨1, fun _ => rfl⟩, ⟨0, fun _ => rfl⟩⟩

/-- From `f` to `f'` the environment `c` was created with a copy of the memory. The addresses in `X`
are those of the stack frame of `fork`. The page `PFTEMP` is not mapped in `c` if it was not mapped
before. -/
structure CopyOf (X : Word → Prop) (c : Word) (f f' : Family) : Prop where
  new : f.world.procs c = none
  ne_zero : c ≠ 0
  sound : f'.world.Sound Nothing
  self : f'.world.self = f.world.self
  procs : ∀ e, e ≠ f.world.self → e ≠ c → f'.world.procs e = f.world.procs e
  mine : ∀ va, ¬ Uncopied va → ¬ X va → f'.world.view f.world.self va
    = puts (f.world.view f.world.self) (wordBytes l.handler l.pgfault) va
  mapped : ∀ va, ¬ Uncopied va →
    (f'.world.entry f.world.self va).isSome = (f.world.entry f.world.self va).isSome
  keeps : Keeps f.world.self f.world f'.world
  later : Later f.world f'.world
  others : ∀ e va, e ≠ f.world.self → e ≠ c → f'.world.view e va = f.world.view e va
  copied : ∀ va, va.toNat < UTOP → ¬ Uncopied va →
    (f'.world.entry c va).isSome = (f.world.entry f.world.self va).isSome
    ∧ (¬ X va → f'.world.view c va = f'.world.view f.world.self va)
  may : ∀ va m, va.toNat < UTOP → ¬ Uncopied va → f.world.entry f.world.self va = some m →
    m.Writable → ∃ m', f'.world.entry c va = some m' ∧ m'.Writable
  readonly : ∀ va m, PGNUM va ≠ PGNUM excStack → f'.world.entry c va = some m →
    m.perm &&& PTE_W = 0
  stack : ∀ va, PGNUM va = PGNUM excStack →
    (∃ p, f'.world.entry c va = some ⟨p, PTE_P ||| PTE_W ||| PTE_U⟩)
    ∧ f'.world.view c va = some 0
  temp : ∀ va, PGNUM va = PGNUM PFTEMP → f.world.entry f.world.self va = none →
    f'.world.entry c va = none
  rest : ∀ va, UTOP ≤ va.toNat → f'.world.entry c va = none
  runnable : ∃ p, f'.world.procs c = some p ∧ p.status = .ENV_RUNNABLE
  upcalls : ∀ e, e ≠ f.world.self → e ≠ c → f'.upcall e = f.upcall e
  upcall : f'.upcall c = f'.upcall f.world.self ∧ f'.upcall c ≠ 0

/-- The pages below `UTOP` are those that the loop of `fork` goes through. -/
theorem PGNUM_lt_UTOP (h : va.toNat < UTOP) :
  PGNUM va < UTOP / PGSIZE
  := by
  have hdvd : UTOP = UTOP / PGSIZE * PGSIZE := by decide
  rw [PGNUM_eq]
  rw [hdvd] at h
  simp only [PGSIZE] at h ⊢
  omega

/-- The parts of `fork` make a copy. -/
theorem copyOf {f1 f2 f3 f4 : Family} (hprep : Prepared l f f1) (hnew : Created c f1 f2)
    (hforked : Forked Nothing X c (UTOP / PGSIZE) f2.world f3.world) (hup : f3.upcall = f2.upcall)
    (hfin : Finished c f3 f4) :
  CopyOf l X c f f4
  := by
  have hself2 := hnew.self.trans hprep.self
  have hself3 := hforked.self.trans hself2
  have hrun : (f1.world.procs f.world.self).isSome := hprep.self ▸ hprep.sound.wf.running
  have hc : c ≠ f.world.self := by
    rintro rfl
    rw [hnew.new] at hrun
    cases hrun
  have hmapped := hforked.mapped
  have hothers := hforked.others
  have hcopied := hforked.copied
  have hkeeps := hforked.keeps
  have hmay := hforked.may
  have htemp := hforked.temp
  rw [hself2] at hmapped hothers hcopied hkeeps hmay htemp
  simp only [Temp, hself2] at hothers
  have hchild : ∀ {va : Word}, ¬ Uncopied va → ¬ (c = c ∧ PGNUM va = PGNUM excStack) :=
    fun hun hx => hun (Or.inr hx.2)
  have hother : ∀ {e va : Word}, e ≠ c → ¬ (e = c ∧ PGNUM va = PGNUM excStack) :=
    fun he hx => he hx.1
  have hmine : ∀ va, ¬ Uncopied va → ¬ X va → f4.world.view f.world.self va
      = f2.world.view f.world.self va := by
    intro va hun hX
    rw [hfin.views _ _ (hother hc.symm)]
    exact hothers _ _ hc.symm (fun ht => hun (Or.inl ht.2)) (fun _ => hX)
  have hsame : ∀ va, f2.world.entry f.world.self va = f1.world.entry f.world.self va :=
    fun va => congrFun (congrFun hnew.entry _) va
  constructor
  case new => exact (hprep.procs c hc).symm.trans hnew.new
  case ne_zero => exact hnew.ne_zero
  case sound => exact hfin.sound
  case self => exact hfin.self.trans hself3
  case procs =>
    intro e he hec
    rw [hfin.procs e hec, hforked.procs e (hself2 ▸ he) hec, hnew.procs e hec, hprep.procs e he]
  case mine =>
    intro va hun hX
    rw [hmine va hun hX, hnew.views, hprep.mine va hun]
  case mapped =>
    intro va hun
    rw [hfin.entries _ _ (hother hc.symm), hmapped va (fun heq => hun (Or.inl heq)), hnew.entry,
      hprep.mapped va hun]
  case keeps =>
    apply (hprep.keeps.trans (Keeps.of_entry (fun va => hsame va))).trans
    exact hkeeps.trans (Keeps.of_entry (fun va => hfin.entries _ _ (hother hc.symm)))
  case later => exact ((hprep.later.trans hnew.later).trans hforked.later).trans hfin.later
  case others =>
    intro e va he hec
    rw [hfin.views _ _ (hother hec), hothers _ _ hec (fun ht => he ht.1) (fun heq => (he heq).elim),
      hnew.views, hprep.others e va he]
  case copied =>
    intro va hlt hun
    obtain ⟨hsome, hview⟩ := hcopied va (PGNUM_lt_UTOP hlt) hun
    constructor
    · rw [hfin.entries _ _ (hchild hun), hsome, hnew.entry, hprep.mapped va hun]
    · intro hX
      rw [hmine va hun hX, hfin.views _ _ (hchild hun), hview hX]
  case may =>
    intro va m hlt hun hm hwr
    obtain ⟨m1, hm1, hkeeps1⟩ := hprep.keeps.pages va m (fun heq => hun (Or.inl heq)) hm
    rw [hfin.entries _ _ (hchild hun)]
    exact hmay va m1 (PGNUM_lt_UTOP hlt) hun ((hsame va).trans hm1) (hkeeps1.writable hwr)
  case readonly =>
    intro va m hva hm
    rw [hfin.entries _ _ (fun hx => hva hx.2)] at hm
    exact hforked.readonly va m hm
  case stack =>
    intro va hva
    obtain ⟨hentry, hview⟩ := hfin.stack va hva
    exact ⟨⟨_, hentry⟩, hview⟩
  case temp =>
    intro va hva hnone
    have hstack : PGNUM excStack ≠ PGNUM PFTEMP := by decide
    rw [hfin.entries _ _ (fun hx => hstack (hx.2.symm.trans hva))]
    exact htemp va hva ((hsame va).trans (hprep.keeps.temp va hva hnone))
  case rest =>
    intro va hva
    have hpage : UTOP / PGSIZE ≤ PGNUM va := by
      rw [PGNUM_eq]
      exact Nat.div_le_div_right hva
    have hstack : PGNUM excStack < UTOP / PGSIZE := by decide
    have hne : PGNUM va ≠ PGNUM excStack := by omega
    rw [hfin.entries _ _ (fun hx => hne hx.2)]
    exact hforked.rest va (Or.inl hpage)
  case runnable => exact hfin.runnable
  case upcalls =>
    intro e he hec
    rw [hfin.upcalls, Function.update_of_ne hec, hup, hnew.upcalls, Function.update_of_ne hec,
      hprep.upcalls e he]
  case upcall =>
    have hne : f3.upcall f3.world.self ≠ 0 := hfin.upcall
    rw [hfin.upcalls, Function.update_self, ← hself3, Function.update_of_ne (hself3.symm ▸ hc.symm)]
    exact ⟨rfl, hne⟩

/-- The addresses that a frame writes to. -/
def Frame.Within (frame : Frame) (X : Word → Prop) : Prop :=
  ∀ n, (∀ x ∈ frame.between n, X x.1) ∧ ∀ x ∈ frame.after n, X x.1

/-- An environment that was just created maps nothing. -/
theorem Created.forked {f : Family} (h : Created c f f') (hsound : f'.world.Sound Nothing) :
  Forked Nothing X c 0 f'.world f'.world
  := by
  have hnone : ∀ va, f'.world.entry c va = none := by
    intro va
    rw [h.entry, World.entry, h.new]
    rfl
  constructor
  case sound => exact hsound
  case self => rfl
  case child => exact h.running
  case procs => exact fun _ _ _ => rfl
  case mapped => exact fun _ _ => rfl
  case keeps => exact Keeps.of_entry (fun _ => rfl)
  case later => exact Later.refl _
  case others => exact fun _ _ _ _ _ => rfl
  case copied => exact fun _ hlt => (Nat.not_lt_zero _ hlt).elim
  case may => exact fun _ _ hlt => (Nat.not_lt_zero _ hlt).elim
  case readonly =>
    intro va m hm
    rw [hnone] at hm
    cases hm
  case temp => exact fun va _ _ => hnone va
  case rest => exact fun va _ => hnone va

/-- It is another environment than the one that runs. -/
theorem Created.ne_self {f : Family} (h : Created c f f') (hwf : f.world.Wf) :
  c ≠ f'.world.self
  := by
  intro heq
  have hnone := h.new
  have hrun := hwf.running
  rw [← h.self, ← heq, hnone] at hrun
  cases hrun

/-- `fork` creates a copy, if it returns. -/
theorem fork_any {frame : Frame} (h : f.world.Sound Nothing)
    (hl : ∀ x ∈ wordBytes l.handler l.pgfault, PGNUM x.1 ≠ PGNUM PFTEMP)
    (hframe : frame.Within X) (hX : ∀ va, X va → PGNUM va ≠ PGNUM PFTEMP) :
  (fork l frame).EndsOr (fun _ => True) f (fun c f' => CopyOf l X c f f')
  := by
  rw [fork, endsOr_bind]
  apply (setPgfaultHandler_any l h hl).mono
  rintro _ f1 hprep
  rw [endsOr_bind]
  apply exofork_any.mono
  intro c f2 h2
  apply check_any trivial
  intro hr
  have hnew := h2 hr
  have hc := hnew.ne_self hprep.sound.wf
  have hstart : Forked Nothing X c 0 f2.world f2.world := hnew.forked (hnew.sound hprep.sound)
  rw [endsOr_bind]
  apply (endsOr_forUp (fun n f3 => f3.upcall = f2.upcall ∧ Forked Nothing X c n f2.world f3.world)
    _ ⟨rfl, hstart⟩).mono
  · rintro _ f3 ⟨hup3, hforked⟩
    rw [endsOr_bind]
    apply (forkFinish_any hforked.sound hnew.ne_zero).mono
    rintro _ f4 hfin
    rw [endsOr_pure]
    rw [Nat.zero_add] at hforked
    exact copyOf l hprep hnew hforked hup3 hfin
  · rintro n f3 - hn ⟨hup3, hforked⟩
    apply (forkPage_any l hforked hnew.ne_zero hc (by omega) _ _).mono
    · rintro _ f4 ⟨hup4, hforked4⟩
      exact ⟨hup4.trans hup3, hforked4⟩
    · exact fun x hx => ⟨(hframe n).1 x hx, hX _ ((hframe n).1 x hx)⟩
    · exact fun x hx => ⟨(hframe n).2 x hx, hX _ ((hframe n).2 x hx)⟩

end Before

end User

end Jos
