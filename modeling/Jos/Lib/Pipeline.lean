import Mathlib.Data.List.Nodup
import Mathlib.Logic.Function.Basic

/-!
# Pipelines of processes

In a pipeline each process hands values to the next, and the last one may start a further process.
A process is described by its story: the values it has received, what it has printed, the values it
has handed on and to whom, and how many steps this took.  Where the stories fit together, the values
handed on by one being those received by the next, the processes stand in line.  A line says of a
whole network what it has printed, and it is kept by what a process does where the story of this
process alone goes on.
-/

namespace Pipeline

/-- What a process has done so far. -/
structure Story (ι V : Type) where
  received : List V
  printed : List V
  sent : List V
  next : Option ι
  steps : Nat

/-- The processes `ids` of the pipeline that starts at `e` have received the values `D` there, and
have printed `out` in `t` steps. -/
inductive Line {ι V σ : Type} (Tells : σ → Story ι V → Prop) (procs : ι → Option σ) :
    List V → ι → List ι → List V → Nat → Prop where
  | last {D out : List V} {e : ι} {t : Nat} {P : σ}
      (hproc : procs e = some P) (htells : Tells P ⟨D, out, [], none, t⟩) :
      Line Tells procs D e [e] out t
  | link {D l o out : List V} {e c : ι} {ids : List ι} {t u : Nat} {P : σ}
      (hproc : procs e = some P) (htells : Tells P ⟨D, o, l, some c, u⟩)
      (hnew : e ∉ ids) (hrest : Line Tells procs l c ids out t) :
      Line Tells procs D e (e :: ids) (o ++ out) (u + t)

variable {ι V σ : Type} {Tells : σ → Story ι V → Prop} {procs : ι → Option σ} {D out : List V}
  {ids : List ι} {e c x : ι} {t : Nat} {P R Q S : σ} {v : V}

namespace Line

variable (h : Line Tells procs D e ids out t)
include h

theorem head_mem :
  e ∈ ids
  := by
  cases h with
  | last => exact List.mem_singleton_self _
  | link => exact List.mem_cons_self ..

theorem nodup :
  ids.Nodup
  := by
  induction h with
  | last => exact List.nodup_singleton _
  | link _ _ hnew _ ih => exact List.nodup_cons.mpr ⟨hnew, ih⟩

theorem ne_none (hx : x ∈ ids) :
  procs x ≠ none
  := by
  induction h with
  | last hproc =>
      rw [List.mem_singleton.mp hx, hproc]
      exact Option.some_ne_none _
  | link hproc _ _ _ ih =>
      rcases List.mem_cons.mp hx with rfl | hx
      · rw [hproc]
        exact Option.some_ne_none _
      · exact ih hx

/-- A process that hands values on has somebody to hand them to. -/
theorem next_mem (hx : x ∈ ids) (hP : procs x = some P) (hnext : ∀ s, Tells P s → s.next = some c) :
  c ∈ ids
  := by
  induction h with
  | last hproc htells =>
      cases List.mem_singleton.mp hx
      cases hproc.symm.trans hP
      exact absurd (hnext _ htells) nofun
  | link hproc htells _ hrest ih =>
      rcases List.mem_cons.mp hx with rfl | hx
      · cases hproc.symm.trans hP
        cases hnext _ htells
        exact List.mem_cons_of_mem _ hrest.head_mem
      · exact List.mem_cons_of_mem _ (ih hx)

/-! ### Steps -/

variable [DecidableEq ι]

/-- A process that does not stand in line does not matter. -/
theorem update_of_not_mem (hx : x ∉ ids) (P : Option σ) :
  Line Tells (Function.update procs x P) D e ids out t
  := by
  induction h with
  | last hproc htells =>
      refine last ?_ htells
      rw [Function.update_of_ne (fun heq => hx (by rw [heq]; exact List.mem_singleton_self _))]
      exact hproc
  | link hproc htells hnew _ ih =>
      refine link ?_ htells hnew (ih (fun hin => hx (List.mem_cons_of_mem _ hin)))
      rw [Function.update_of_ne (fun heq => hx (by rw [heq]; exact List.mem_cons_self ..))]
      exact hproc

/-- A process goes on by itself, and prints `l`. -/
theorem moves {l : List V} (hx : x ∈ ids) (hP : procs x = some P)
    (hstep : ∀ s, Tells P s → (l = [] ∨ s.next = none) ∧
      ∃ u > s.steps, Tells R { s with printed := s.printed ++ l, steps := u }) :
  ∃ t' > t, Line Tells (Function.update procs x (some R)) D e ids (out ++ l) t'
  := by
  induction h with
  | last hproc htells =>
      cases List.mem_singleton.mp hx
      cases hproc.symm.trans hP
      obtain ⟨-, u, hu, htells'⟩ := hstep _ htells
      exact ⟨u, hu, last (Function.update_self ..) htells'⟩
  | @link _ _ _ _ e _ _ _ u _ hproc htells hnew hrest ih =>
      rcases List.mem_cons.mp hx with rfl | hx
      · cases hproc.symm.trans hP
        obtain ⟨hl, w, hw, htells'⟩ := hstep _ htells
        -- only the last process may print, so the order of what is printed is that of the line
        have hnil : l = [] := hl.resolve_right nofun
        subst hnil
        rw [List.append_nil] at htells' ⊢
        exact ⟨_, Nat.add_lt_add_right hw _,
          link (Function.update_self ..) htells' hnew (hrest.update_of_not_mem hnew _)⟩
      · have hne : e ≠ x := fun heq => hnew (heq ▸ hx)
        obtain ⟨t', ht', hrest'⟩ := ih hx
        rw [List.append_assoc]
        refine ⟨u + t', Nat.add_lt_add_left ht' u, link ?_ htells hnew hrest'⟩
        rw [Function.update_of_ne hne]
        exact hproc

/-- The first process receives a value. -/
theorem receives (hQ : procs e = some Q)
    (hstep : ∀ s, Tells Q s → ∃ u > s.steps,
      Tells S { s with received := s.received ++ [v], steps := u }) :
  ∃ t' > t, Line Tells (Function.update procs e (some S)) (D ++ [v]) e ids out t'
  := by
  cases h with
  | last hproc htells =>
      cases hproc.symm.trans hQ
      obtain ⟨u, hu, htells'⟩ := hstep _ htells
      exact ⟨u, hu, last (Function.update_self ..) htells'⟩
  | @link _ _ _ _ _ _ _ t _ _ hproc htells hnew hrest =>
      cases hproc.symm.trans hQ
      obtain ⟨w, hw, htells'⟩ := hstep _ htells
      exact ⟨w + t, Nat.add_lt_add_right hw t,
        link (Function.update_self ..) htells' hnew (hrest.update_of_not_mem hnew _)⟩

/-- A process hands a value on. -/
theorem sends (hx : x ∈ ids) (hP : procs x = some P) (hQ : procs c = some Q)
    (hstep : ∀ s, Tells P s → s.next = some c ∧
      ∃ u > s.steps, Tells R { s with sent := s.sent ++ [v], steps := u })
    (hstep' : ∀ s, Tells Q s → ∃ u > s.steps,
      Tells S { s with received := s.received ++ [v], steps := u }) :
  ∃ t' > t, Line Tells (Function.update (Function.update procs x (some R)) c (some S)) D e ids out t'
  := by
  induction h with
  | last hproc htells =>
      cases List.mem_singleton.mp hx
      cases hproc.symm.trans hP
      exact absurd (hstep _ htells).1 nofun
  | @link _ _ _ _ e _ _ _ u _ hproc htells hnew hrest ih =>
      rcases List.mem_cons.mp hx with rfl | hx
      · cases hproc.symm.trans hP
        obtain ⟨hnext, w, hw, htells'⟩ := hstep _ htells
        cases hnext
        have hne : x ≠ c := fun heq => hnew (heq ▸ hrest.head_mem)
        obtain ⟨t', ht', hrest'⟩ := hrest.receives hQ hstep'
        rw [Function.update_comm hne]
        refine ⟨w + t', Nat.add_lt_add hw ht', link (Function.update_self ..) htells' hnew ?_⟩
        exact hrest'.update_of_not_mem hnew _
      · have hne : e ≠ x := fun heq => hnew (heq ▸ hx)
        have hne' : e ≠ c := by
          rintro rfl
          exact hnew (hrest.next_mem hx hP (fun s hs => (hstep s hs).1))
        obtain ⟨t', ht', hrest'⟩ := ih hx
        refine ⟨u + t', Nat.add_lt_add_left ht' u, link ?_ htells hnew hrest'⟩
        rw [Function.update_of_ne hne', Function.update_of_ne hne]
        exact hproc

/-- The last process starts a further one. -/
theorem starts (hx : x ∈ ids) (hP : procs x = some P) (hc : procs c = none)
    (hstep : ∀ s, Tells P s → s.next = none ∧
      ∃ u > s.steps, Tells R { s with next := some c, steps := u })
    (hQ : Tells Q ⟨[], [], [], none, 0⟩) :
  ∃ t' > t, Line Tells (Function.update (Function.update procs x (some R)) c (some Q)) D e
    (ids ++ [c]) out t'
  := by
  induction h with
  | @last _ out _ _ _ hproc htells =>
      cases List.mem_singleton.mp hx
      cases hproc.symm.trans hP
      obtain ⟨-, u, hu, htells'⟩ := hstep _ htells
      have hne : x ≠ c := by
        rintro rfl
        exact absurd (hproc.symm.trans hc) nofun
      refine ⟨u, hu, ?_⟩
      rw [← List.append_nil out]
      refine link (u := u) (t := 0) ?_ htells' ?_ (last (Function.update_self ..) hQ)
      · rw [Function.update_of_ne hne, Function.update_self]
      · exact fun hin => hne (List.mem_singleton.mp hin)
  | @link _ _ _ _ e _ _ _ u _ hproc htells hnew hrest ih =>
      have hne' : e ≠ c := by
        rintro rfl
        exact absurd (hproc.symm.trans hc) nofun
      rcases List.mem_cons.mp hx with rfl | hx
      · cases hproc.symm.trans hP
        exact absurd (hstep _ htells).1 nofun
      · have hne : e ≠ x := fun heq => hnew (heq ▸ hx)
        obtain ⟨t', ht', hrest'⟩ := ih hx
        refine ⟨u + t', Nat.add_lt_add_left ht' u, link ?_ htells ?_ hrest'⟩
        · rw [Function.update_of_ne hne', Function.update_of_ne hne]
          exact hproc
        · intro hin
          rcases List.mem_append.mp hin with hin | hin
          · exact hnew hin
          · exact hne' (List.mem_singleton.mp hin)

end Line

end Pipeline
