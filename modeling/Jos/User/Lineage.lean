import Jos.User.Faults

/-!
# Environments that descend from another one

Whatever an environment may write to, every environment that descends from it may write to as well:
its page faults are handled as long as there is memory, whichever environments of the family shared
the page, copied it or forked in the meantime.
-/

namespace Jos

namespace User

open Bytes Prog View

variable {l : Linked} {f f' : Family} {c d e va : Word} {X : Word → Prop} {ev : Event}
  {evs : List Event}

/-! ### Descent -/

/-- The environment `d` is `e`, or descends from it by forks among the events. -/
inductive Descends : Word → List Event → Word → Prop where
  | nil (e : Word) : Descends e [] e
  | stays {e d : Word} {ev : Event} {evs : List Event} :
      Descends e evs d → Descends e (ev :: evs) d
  | forks {e c d : Word} {X : Word → Prop} {evs : List Event} :
      Descends c evs d → Descends e (.fork e c X :: evs) d

/-- The variable with the handler is left alone. -/
def Event.Spares (l : Linked) : Event → Prop
  | .write _ va b => ∀ y ∈ wordBytes l.handler l.pgfault, va = y.1 → b = y.2
  | .fork _ _ X => ∀ y ∈ wordBytes l.handler l.pgfault, ¬ X y.1

/-- The environment `e` has its page faults handled, and may write to `va`. -/
structure Serves (l : Linked) (va e : Word) (f : Family) : Prop where
  ne_zero : e ≠ 0
  capable : Capable l e f
  page : ∃ m, f.world.entry e va = some m ∧ m.Writable

/-- It does not matter which environment runs. -/
theorem Serves.on (h : Serves l va e f) (d : Word) :
  Serves l va e (f.on d)
  := ⟨h.ne_zero, ⟨h.capable.upcall, h.capable.stack, h.capable.handler⟩, h.page⟩

/-- An environment that nothing happened to. -/
theorem Serves.of_same (h : Serves l va e f) (hup : f'.upcall e = f.upcall e)
    (hprocs : f'.world.procs e = f.world.procs e)
    (hviews : ∀ va, f'.world.view e va = f.world.view e va) :
  Serves l va e f'
  := by
  have hentry : ∀ va, f'.world.entry e va = f.world.entry e va := by
    intro va
    rw [World.entry, World.entry, hprocs]
  constructor
  case ne_zero => exact h.ne_zero
  case capable =>
    apply h.capable.keeps hup (Keeps.of_entry hentry)
    intro x hx
    rw [hviews]
    exact h.capable.handler x hx
  case page =>
    rw [hentry]
    exact h.page

/-- An environment that kept its pages. -/
theorem Serves.of_keeps (h : Serves l va e f) (hva : Ordinary va)
    (hcap : Capable l e f') (hkeeps : Keeps e f.world f'.world) :
  Serves l va e f'
  := by
  obtain ⟨m, hm, hwr⟩ := h.page
  obtain ⟨m', hm', hmm⟩ := hkeeps.pages va m (fun heq => hva.2 (Or.inl heq)) hm
  exact ⟨h.ne_zero, hcap, m', hm', hmm.writable hwr⟩

/-- An environment that serves runs. -/
theorem Serves.running (h : Serves l va e f) :
  (f.world.procs e).isSome
  := by
  obtain ⟨m, hm, -⟩ := h.page
  rw [World.entry] at hm
  cases hp : f.world.procs e with
  | some p => rfl
  | none =>
      rw [hp] at hm
      cases hm

/-- The variable with the handler after a `fork`. -/
theorem CopyOf.handler (h : CopyOf l X c f f') (hl : l.Ordinary)
    (hspare : ∀ y ∈ wordBytes l.handler l.pgfault, ¬ X y.1) :
  ∀ y ∈ wordBytes l.handler l.pgfault,
    f'.world.view f.world.self y.1 = some y.2 ∧ f'.world.view c y.1 = some y.2
  := by
  intro y hy
  obtain ⟨hlt, hun⟩ := hl y hy
  have hmine : f'.world.view f.world.self y.1 = some y.2 := by
    rw [h.mine _ hun (hspare y hy)]
    exact puts_of_mem (fun z hz => spares_handler z hz y hy) hy
  refine ⟨hmine, ?_⟩
  rw [(h.copied _ hlt hun).2 (hspare y hy), hmine]

/-- What an environment may do it may do after a step. -/
theorem Step.serves (hl : l.Ordinary) (hva : Ordinary va) (h : f.world.Sound Nothing)
    (hstep : Step l ev f f') (hspare : ev.Spares l) (hs : Serves l va e f) :
  Serves l va e f'
  := by
  cases hstep with
  | @write _ _ a va' b ha hrun hva' heq =>
      have hsound := Family.on_sound ha hrun h
      obtain ⟨hup, hwrote⟩ :=
        (write_any l hsound (fun ht => hva'.2 (Or.inl ht)) b).of_eq heq
      by_cases hea : e = a
      · subst hea
        have hserves := hs.on e
        apply hserves.of_keeps hva _ hwrote.keeps
        exact Capable.wrote hl (fun _ _ hno => hno) hserves.capable hup hwrote hspare
      · apply hs.of_same (congrFun hup e) (hwrote.procs e hea)
        exact fun va => hwrote.others e va (fun ht => hea ht.1) (fun hx => hea hx.1) (fun hno => hno.1)
  | @fork _ _ a c X frame ha hrun hX hframe heq =>
      have hsound := Family.on_sound ha hrun h
      have hcopy := (fork_any l hsound hl.not_temp hframe
        (fun va hva ht => (hX va hva).2 (Or.inl ht))).of_eq heq
      have hec : e ≠ c := by
        rintro rfl
        have hnone : f.world.procs e = none := hcopy.new
        have hrun := hs.running
        rw [hnone] at hrun
        cases hrun
      by_cases hea : e = a
      · subst hea
        apply (hs.on e).of_keeps hva _ hcopy.keeps
        have hstack : PGNUM excStack ≠ PGNUM PFTEMP := by decide
        constructor
        case upcall => exact hcopy.upcall.1 ▸ hcopy.upcall.2
        case stack =>
          obtain ⟨m, hm, hwr⟩ := hs.capable.stack
          obtain ⟨m', hm', hmm⟩ := hcopy.keeps.pages _ m hstack hm
          exact ⟨m', hm', hmm.stack rfl hwr⟩
        case handler => exact fun y hy => (hcopy.handler hl hspare y hy).1
      · apply hs.of_same (hcopy.upcalls e hea hec) (hcopy.procs e hea hec)
        exact fun va => hcopy.others e va hea hec

/-- What an environment may do the environments may do that it creates. -/
theorem Step.serves_child (hl : l.Ordinary) (hva : Ordinary va) (h : f.world.Sound Nothing)
    (hstep : Step l (.fork e c X) f f') (hspare : ∀ y ∈ wordBytes l.handler l.pgfault, ¬ X y.1)
    (hs : Serves l va e f) :
  Serves l va c f'
  := by
  cases hstep with
  | @fork _ _ _ _ _ frame ha hrun hX hframe heq =>
      have hcopy := (fork_any l (Family.on_sound ha hrun h) hl.not_temp hframe
        (fun va hva ht => (hX va hva).2 (Or.inl ht))).of_eq heq
      have hbit : (PTE_P ||| PTE_W ||| PTE_U) &&& PTE_W ≠ 0 := by decide
      obtain ⟨m, hm, hwr⟩ := hs.page
      obtain ⟨⟨p, hp⟩, -⟩ := hcopy.stack excStack rfl
      constructor
      case ne_zero => exact hcopy.ne_zero
      case capable =>
        exact ⟨hcopy.upcall.2, ⟨_, hp, hbit⟩, fun y hy => (hcopy.handler hl hspare y hy).2⟩
      case page => exact hcopy.may va m hva.1 hva.2 hm hwr

/-- What an environment may do its descendants may do. -/
theorem Descends.serves (hl : l.Ordinary) (hva : Ordinary va) (h : f.world.Sound Nothing)
    (hrun : Trace (Step l) f evs f') (hspare : ∀ ev ∈ evs, ev.Spares l) (hdesc : Descends e evs d)
    (hs : Serves l va e f) :
  f'.world.Sound Nothing ∧ Serves l va d f'
  := by
  induction hrun generalizing e with
  | nil f =>
      cases hdesc
      exact ⟨h, hs⟩
  | @cons f f1 f2 ev evs hstep hrest ih =>
      have hsound := (hstep.copies hl h).1
      have hrests : ∀ ev ∈ evs, ev.Spares l := fun ev hev => hspare ev (List.mem_cons_of_mem _ hev)
      have hfirst := hspare ev (List.mem_cons_self ..)
      cases hdesc with
      | stays hdesc => exact ih hsound hrests hdesc (hstep.serves hl hva h hfirst hs)
      | forks hdesc => exact ih hsound hrests hdesc (hstep.serves_child hl hva h hfirst hs)

/-- A descendant of an environment that may write to `va` may do so too: the write returns as long as
there is memory, and is read back. -/
theorem family_serves (hl : l.Ordinary) (h : f.world.Sound Nothing)
    (hrun : Trace (Step l) f evs f') (hspare : ∀ ev ∈ evs, ev.Spares l) (hdesc : Descends e evs d)
    (hs : Serves l va e f) (hva : Ordinary va) (hmem : isError (f'.world.fate 0) = false) (b : Byte) :
  ∃ f'', write l va b (f'.on d) = .ok ((), f'') ∧ f''.world.view d va = some b
  := by
  obtain ⟨hsound, hserves⟩ := hdesc.serves hl hva h hrun hspare hs
  obtain ⟨m, hm, hwr⟩ := hserves.page
  have hsound' := Family.on_sound hserves.ne_zero hserves.running hsound
  obtain ⟨f'', heq⟩ := write_returns hsound'.toPlain (hserves.on d).capable hva hm hwr hmem b
  obtain ⟨-, hwrote⟩ := (write_any l hsound' (fun ht => hva.2 (Or.inl ht)) b).of_eq heq
  exact ⟨f'', heq, hwrote.written⟩

/-- While there is memory, and numbers of environments, `fork` returns, and the environment that it
created is a copy of the one that runs. -/
theorem fork_copies {frame : Frame} (hl : l.Ordinary) (h : f.world.Sound Nothing)
    (hprep : Prepares l f) (hplenty : f.world.Plenty)
    (hnew : ∀ k, f.world.fate k ≠ 0 ∧ f.world.procs (f.world.fate k) = none)
    (hX : ∀ va, X va → Ordinary va) (hspare : ∀ x ∈ wordBytes l.handler l.pgfault, ¬ X x.1)
    (hmay : May X f.world.self f.world) (htemp : f.world.entry f.world.self PFTEMP = none)
    (hframe : frame.Within X) :
  ∃ c f', fork l frame f = .ok (c, f') ∧ CopyOf l X c f f' ∧ Capable l c f'
  := by
  obtain ⟨c, f', heq, hcap, -⟩ :=
    fork_returns hl h hprep hplenty hnew hX hspare hmay htemp hframe
  have hcopy := (fork_any l h hl.not_temp hframe
    (fun va hva ht => (hX va hva).2 (Or.inl ht))).of_eq heq
  exact ⟨c, f', heq, hcopy, hcap⟩

/-! ### A family of two -/

/-- An environment with the page `0`, which it shares, and an exception stack of its own. -/
def sharer (stack : Nat) : Proc where
  maps pn :=
    if pn = 0x800 then some ⟨0, PTE_COW ||| PTE_P ||| PTE_U⟩
    else if pn = PGNUM excStack then some ⟨stack, PTE_P ||| PTE_W ||| PTE_U⟩
    else none

def coupleLinked : Linked where
  handler := 0x800000
  upcall := 0x800100
  pgfault := 0x800074

/-- Two environments that share a page, in which the handler is registered. -/
def couple : Family where
  world := {
    self := 1
    procs := fun e => if e = 1 then some (sharer 1) else if e = 2 then some (sharer 2) else none
    mem := fun a => if a = 0 then 0x74 else if a = 2 then 0x80 else 0
    next := 3
    fate := fun _ => 3
    tables := fun _ => 0
    disk := fun _ => File.ofData [] (by decide)
    files := fun _ => none }
  upcall := fun _ => coupleLinked.upcall

/-- What the two environments map. -/
theorem entry_couple {m : Mapped} (hm : couple.world.entry e va = some m) :
  m = ⟨0, PTE_COW ||| PTE_P ||| PTE_U⟩
    ∨ PGNUM va = PGNUM excStack ∧ ((e = 1 ∧ m = ⟨1, PTE_P ||| PTE_W ||| PTE_U⟩)
      ∨ (e = 2 ∧ m = ⟨2, PTE_P ||| PTE_W ||| PTE_U⟩))
  := by
  have hsharer : ∀ stack : Nat, (sharer stack).maps (PGNUM va) = some m →
      m = ⟨0, PTE_COW ||| PTE_P ||| PTE_U⟩
        ∨ PGNUM va = PGNUM excStack ∧ m = ⟨stack, PTE_P ||| PTE_W ||| PTE_U⟩ := by
    intro stack hstack
    simp only [sharer] at hstack
    split at hstack
    case isTrue => exact Or.inl (Option.some.inj hstack).symm
    case isFalse =>
      split at hstack
      case isTrue hexc => exact Or.inr ⟨hexc, (Option.some.inj hstack).symm⟩
      case isFalse => cases hstack
  simp only [World.entry, couple] at hm
  split at hm
  case isTrue he =>
    obtain heq | ⟨hexc, heq⟩ := hsharer 1 hm
    · exact Or.inl heq
    · exact Or.inr ⟨hexc, Or.inl ⟨he, heq⟩⟩
  case isFalse =>
    split at hm
    case isTrue he =>
      obtain heq | ⟨hexc, heq⟩ := hsharer 2 hm
      · exact Or.inl heq
      · exact Or.inr ⟨hexc, Or.inr ⟨he, heq⟩⟩
    case isFalse => cases hm

theorem couple_plain :
  couple.world.Plain
  := by
  refine ⟨⟨by decide, by decide, ?_⟩, ?_⟩
  · intro e va m hm
    obtain rfl | ⟨-, ⟨-, rfl⟩ | ⟨-, rfl⟩⟩ := entry_couple hm
    · decide
    · decide
    · decide
  · intro e va m hm
    obtain rfl | ⟨-, ⟨-, rfl⟩ | ⟨-, rfl⟩⟩ := entry_couple hm
    · decide
    · decide
    · decide

/-- A page of the two that may be written is the exception stack of one of them. -/
theorem maps_couple {a : EnvPage} {x : Nat × Bool} (hmaps : couple.world.sharing.maps a = some x) :
  x = (0, false) ∨ (a = envPage 1 excStack ∧ x = (1, true)) ∨ (a = envPage 2 excStack ∧ x = (2, true))
  := by
  obtain ⟨va, ha⟩ := exists_envPage a
  rw [← ha, sharing_maps, Option.map_eq_some_iff] at hmaps
  obtain ⟨m, hm, rfl⟩ := hmaps
  rw [← ha, envPage_eq, envPage_eq]
  obtain rfl | ⟨hexc, ⟨he, rfl⟩ | ⟨he, rfl⟩⟩ := entry_couple hm
  · exact Or.inl (by decide)
  · exact Or.inr (Or.inl ⟨⟨he, hexc⟩, by decide⟩)
  · exact Or.inr (Or.inr ⟨⟨he, hexc⟩, by decide⟩)

theorem couple_sound :
  couple.world.Sound Nothing
  := by
  refine ⟨couple_plain, ?_⟩
  intro a a' p w hmaps hmaps'
  left
  obtain hno | ⟨ha, heq⟩ | ⟨ha, heq⟩ := maps_couple hmaps
  · cases hno
  · obtain heq' | ⟨ha', -⟩ | ⟨-, heq'⟩ := maps_couple hmaps'
    · cases heq
      cases heq'
    · rw [ha, ha']
    · cases heq
      cases heq'
  · obtain heq' | ⟨-, heq'⟩ | ⟨ha', -⟩ := maps_couple hmaps'
    · cases heq
      cases heq'
    · cases heq
      cases heq'
    · rw [ha, ha']

theorem couple_capable :
  Capable coupleLinked 1 couple
  := by
  constructor
  case upcall => decide
  case stack => exact ⟨⟨1, PTE_P ||| PTE_W ||| PTE_U⟩, by decide, by decide⟩
  case handler =>
    intro x hx
    simp only [wordBytes, List.mem_cons, List.not_mem_nil, or_false] at hx
    obtain rfl | rfl | rfl | rfl := hx
    · decide
    · decide
    · decide
    · decide

/-- An address in the page that the two share. -/
theorem ordinary_shared :
  Ordinary 0x800010
  := by
  refine ⟨by decide, ?_⟩
  rintro (h | h)
  · exact absurd h (by decide)
  · exact absurd h (by decide)

theorem shared_writable :
  couple.world.entry couple.world.self 0x800010 = some ⟨0, PTE_COW ||| PTE_P ||| PTE_U⟩
    ∧ Mapped.Writable ⟨0, PTE_COW ||| PTE_P ||| PTE_U⟩
  := ⟨by decide, Or.inr (by decide)⟩

theorem couple_linked :
  coupleLinked.Ordinary
  := by
  intro x hx
  simp only [wordBytes, List.mem_cons, List.not_mem_nil, or_false] at hx
  obtain rfl | rfl | rfl | rfl := hx
  all_goals
    refine ⟨by decide, ?_⟩
    rintro (h | h)
    · exact absurd h (by decide)
    · exact absurd h (by decide)

/-- What `fork` needs in one of the two. -/
theorem couple_prepares :
  Prepares coupleLinked couple
  := by
  apply Prepares.again couple_capable _ (by decide)
  rintro va ⟨x, hx, rfl⟩
  simp only [wordBytes, List.mem_cons, List.not_mem_nil, or_false] at hx
  have hcow : Mapped.Writable ⟨0, PTE_COW ||| PTE_P ||| PTE_U⟩ := Or.inr (by decide)
  obtain rfl | rfl | rfl | rfl := hx
  all_goals exact ⟨_, by decide, hcow⟩

theorem couple_plenty :
  couple.world.Plenty ∧ ∀ k, couple.world.fate k ≠ 0 ∧ couple.world.procs (couple.world.fate k) = none
  := by
  have hfate : isError (3 : Word) = false := by decide
  have htables : isError (0 : Word) = false := by decide
  have hne : (3 : Word) ≠ 0 := by decide
  exact ⟨⟨fun _ => hfate, fun _ => htables⟩, fun _ => ⟨hne, rfl⟩⟩

/-- A frame to which nothing is written. -/
theorem frame_within (X : Word → Prop) :
  Frame.Within {} X
  := fun _ => ⟨fun _ hx => (List.not_mem_nil hx).elim, fun _ hx => (List.not_mem_nil hx).elim⟩

theorem couple_fork_copies :
  ∃ c f', fork coupleLinked {} couple = .ok (c, f')
    ∧ CopyOf coupleLinked (fun _ => False) c couple f' ∧ Capable coupleLinked c f'
  :=
  fork_copies couple_linked couple_sound couple_prepares couple_plenty.1 couple_plenty.2
    (fun _ hno => hno.elim) (fun _ _ hno => hno) (fun _ hno => hno.elim) (by decide) (frame_within _)

/-- One of the two forks, and the new environment writes. -/
theorem couple_forks :
  ∃ (c : Word) (f' f'' : Family), Step coupleLinked (.fork 1 c (fun _ => False)) couple f'
    ∧ isError (f'.world.fate 0) = false ∧ Step coupleLinked (.write c 0x800010 7) f' f''
  := by
  obtain ⟨hm, hwr⟩ := shared_writable
  obtain ⟨hplenty, hnew⟩ := couple_plenty
  obtain ⟨c, f', heq, -, -⟩ :=
    fork_returns couple_linked couple_sound couple_prepares hplenty hnew
      (X := fun _ => False) (fun _ hno => hno.elim) (fun _ _ hno => hno) (fun _ hno => hno.elim)
      (by decide) (frame_within _)
  have hcopy := (fork_any coupleLinked couple_sound couple_linked.not_temp
    (frame_within (fun _ => False)) (fun _ hno => hno.elim)).of_eq heq
  have hmem := (hplenty.later hcopy.later).fate 0
  have hstep : Step coupleLinked (.fork 1 c (fun _ => False)) couple f' :=
    Step.fork (by decide) (by decide) (fun _ hno => hno.elim) (frame_within _) heq
  have hserves : Serves coupleLinked 0x800010 1 couple :=
    ⟨by decide, couple_capable, _, hm, hwr⟩
  have hchild := hstep.serves_child couple_linked ordinary_shared couple_sound
    (fun _ _ hno => hno) hserves
  obtain ⟨m, hm', hwr'⟩ := hchild.page
  have hsound := Family.on_sound hchild.ne_zero hchild.running hcopy.sound
  obtain ⟨f'', heq'⟩ := write_returns hsound.toPlain (hchild.on c).capable ordinary_shared hm' hwr' hmem 7
  exact ⟨c, f', f'', hstep, hmem, Step.write hchild.ne_zero hchild.running ordinary_shared heq'⟩

theorem couple_family_refines :
  ∃ (c : Word) (f' : Family), Trace (Copies coupleLinked) couple.memories
    [.fork 1 c (fun _ => False), .write c 0x800010 7] f'.memories
  := by
  obtain ⟨c, f', f'', hfork, -, hwrite⟩ := couple_forks
  exact ⟨c, f'', family_refines couple_linked couple_sound (.cons hfork (.cons hwrite (.nil f'')))⟩

theorem couple_family_serves :
  ∃ (c : Word) (f' f'' : Family), write coupleLinked 0x800010 7 (f'.on c) = .ok ((), f'')
    ∧ f''.world.view c 0x800010 = some 7
  := by
  obtain ⟨c, f', -, hfork, hmem, -⟩ := couple_forks
  obtain ⟨hm, hwr⟩ := shared_writable
  have hspare : ∀ ev ∈ [Event.fork 1 c (fun _ => False)], ev.Spares coupleLinked := by
    intro ev hev
    obtain rfl := List.mem_singleton.mp hev
    exact fun _ _ hno => hno
  obtain ⟨f'', heq, hview⟩ := family_serves couple_linked couple_sound (.cons hfork (.nil f')) hspare
    (.forks (.nil c)) ⟨by decide, couple_capable, _, hm, hwr⟩ ordinary_shared hmem 7
  exact ⟨c, f', f'', heq, hview⟩

end User

end Jos
