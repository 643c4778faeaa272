import Mathlib.Logic.Function.Basic
import Mathlib.Tactic.Common

/-!
# Sharing frames

Places map frames, some of them so that they may be written through the place.  A place shows
what is in its frame.  As long as a frame that may be written is mapped at one place only, a write
through a place changes what this place shows and nothing else, and frames that may not be written
are shared without being noticed.

A place may be lent for a while: the frame is mapped a second time before it is protected.  `Apart L`
is the invariant up to the pairs of places in `L`, and `Exclusive` is the case where nothing is lent.
-/

/-- Places `A` that map frames `F`, each with whether it may be written, and what is in the frames. -/
@[ext]
structure Sharing (A F C : Type) where
  maps : A → Option (F × Bool)
  mem : F → C

namespace Sharing

variable {A F C : Type} {s : Sharing A F C} {a a' c : A} {f : F} {w : Bool}

/-- What a place shows. -/
def view (s : Sharing A F C) (a : A) : Option C :=
  (s.maps a).map (fun m => s.mem m.1)

/-- A frame that may be written through `a` is mapped at `a` only, and at the places `a` is lent to. -/
def Apart (L : A → A → Prop) (s : Sharing A F C) : Prop :=
  ∀ a a' f w, s.maps a = some (f, true) → s.maps a' = some (f, w) → a' = a ∨ L a a'

/-- A frame that may be written is mapped once. -/
def Exclusive (s : Sharing A F C) : Prop :=
  s.Apart (fun _ _ => False)

/-- The one place `a` is lent to the one place `c`. -/
def Lent (a c : A) : A → A → Prop :=
  fun x y => x = a ∧ y = c

/-- No place maps the frame. -/
def Fresh (s : Sharing A F C) (f : F) : Prop :=
  ∀ a w, s.maps a ≠ some (f, w)

/-! ### Mapping and writing -/

/-- Map something else at `a`. -/
def map [DecidableEq A] (s : Sharing A F C) (a : A) (m : Option (F × Bool)) : Sharing A F C :=
  { s with maps := Function.update s.maps a m }

/-- Put something else in the frame `f`. -/
def write [DecidableEq F] (s : Sharing A F C) (f : F) (x : C) : Sharing A F C :=
  { s with mem := Function.update s.mem f x }

section Map

variable [DecidableEq A]

@[simp]
theorem map_maps_self (m : Option (F × Bool)) :
  (s.map a m).maps a = m
  := by apply Function.update_self

theorem map_maps_of_ne (h : a' ≠ a) (m : Option (F × Bool)) :
  (s.map a m).maps a' = s.maps a'
  := by apply Function.update_of_ne h

@[simp]
theorem map_mem (m : Option (F × Bool)) :
  (s.map a m).mem = s.mem
  := rfl

theorem view_map_self (f : F) (w : Bool) :
  (s.map a (some (f, w))).view a = some (s.mem f)
  := by rw [view, map_maps_self, Option.map_some, map_mem]

theorem view_map_of_ne (h : a' ≠ a) (m : Option (F × Bool)) :
  (s.map a m).view a' = s.view a'
  := by rw [view, map_maps_of_ne h, map_mem, view]

end Map

section Write

variable [DecidableEq F] {L : A → A → Prop}

@[simp]
theorem write_maps (x : C) :
  (s.write f x).maps = s.maps
  := rfl

@[simp]
theorem write_mem_self (x : C) :
  (s.write f x).mem f = x
  := by apply Function.update_self

theorem write_mem_of_ne {g : F} (h : g ≠ f) (x : C) :
  (s.write f x).mem g = s.mem g
  := by apply Function.update_of_ne h

/-- A write through a place is seen there. -/
theorem view_write_self (ha : s.maps a = some (f, w)) (x : C) :
  (s.write f x).view a = some x
  := by rw [view, write_maps, ha, Option.map_some, write_mem_self]

theorem Apart.write (h : s.Apart L) (f : F) (x : C) :
  (s.write f x).Apart L
  := h

end Write

/-! ### Mappings that keep the invariant -/

section Keep

variable [DecidableEq A] {L : A → A → Prop}

/-- A place is emptied. -/
theorem Apart.map_none (h : s.Apart L) (a : A) :
  (s.map a none).Apart L
  := by
  intro x y g w hx hy
  have hxa : x ≠ a := by
    rintro rfl
    rw [map_maps_self] at hx
    cases hx
  have hya : y ≠ a := by
    rintro rfl
    rw [map_maps_self] at hy
    cases hy
  rw [map_maps_of_ne hxa] at hx
  rw [map_maps_of_ne hya] at hy
  apply h x y g w hx hy

theorem Fresh.map_none (h : s.Fresh f) (a : A) :
  (s.map a none).Fresh f
  := by
  intro x w hx
  by_cases hxa : x = a
  · subst hxa
    rw [map_maps_self] at hx
    cases hx
  · rw [map_maps_of_ne hxa] at hx
    apply h x w hx

/-- A frame is mapped that nobody maps. -/
theorem Apart.map_fresh (h : s.Apart L) (hf : s.Fresh f) (a : A) (w : Bool) :
  (s.map a (some (f, w))).Apart L
  := by
  intro x y g w' hx hy
  by_cases hxa : x = a
  · subst hxa
    rw [map_maps_self] at hx
    obtain ⟨rfl, rfl⟩ := Prod.mk.inj (Option.some.inj hx)
    by_cases hyx : y = x
    · left
      exact hyx
    · rw [map_maps_of_ne hyx] at hy
      apply (hf y w' hy).elim
  · rw [map_maps_of_ne hxa] at hx
    by_cases hya : y = a
    · subst hya
      rw [map_maps_self] at hy
      obtain ⟨rfl, rfl⟩ := Prod.mk.inj (Option.some.inj hy)
      apply (hf x true hx).elim
    · rw [map_maps_of_ne hya] at hy
      apply h x y g w' hx hy

/-- A place is lent. -/
theorem Exclusive.lend (h : s.Exclusive) (ha : s.maps a = some (f, w)) (c : A) :
  (s.map c (some (f, false))).Apart (Lent a c)
  := by
  intro x y g w' hx hy
  have hxc : x ≠ c := by
    rintro rfl
    rw [map_maps_self] at hx
    simp at hx
  rw [map_maps_of_ne hxc] at hx
  by_cases hyc : y = c
  · subst hyc
    rw [map_maps_self] at hy
    obtain ⟨rfl, rfl⟩ := Prod.mk.inj (Option.some.inj hy)
    obtain heq | hno := h x a f w hx ha
    · right
      exact ⟨heq.symm, rfl⟩
    · apply hno.elim
  · rw [map_maps_of_ne hyc] at hy
    left
    obtain heq | hno := h x y g w' hx hy
    · exact heq
    · apply hno.elim

/-- A place that is lent is protected, and nothing is lent any more. -/
theorem Apart.protect (h : s.Apart (Lent a c)) (ha : s.maps a = some (f, w)) :
  (s.map a (some (f, false))).Exclusive
  := by
  intro x y g w' hx hy
  left
  have hxa : x ≠ a := by
    rintro rfl
    rw [map_maps_self] at hx
    simp at hx
  rw [map_maps_of_ne hxa] at hx
  by_cases hya : y = a
  · subst hya
    rw [map_maps_self] at hy
    obtain ⟨rfl, rfl⟩ := Prod.mk.inj (Option.some.inj hy)
    obtain heq | hlent := h x y f w hx ha
    · exact heq
    · apply (hxa hlent.1).elim
  · rw [map_maps_of_ne hya] at hy
    obtain heq | hlent := h x y g w' hx hy
    · exact heq
    · apply (hxa hlent.1).elim

/-- A frame that may not be written where it is mapped is mapped once more. -/
theorem Exclusive.share (h : s.Exclusive) (ha : s.maps a = some (f, false)) (c : A) :
  (s.map c (some (f, false))).Exclusive
  := by
  intro x y g w' hx hy
  left
  obtain heq | hlent := h.lend ha c x y g w' hx hy
  · exact heq
  · obtain ⟨rfl, rfl⟩ := hlent
    by_cases hxy : y = x
    · exact hxy
    · rw [map_maps_of_ne (Ne.symm hxy), ha] at hx
      simp at hx

end Keep

/-! ### A frame of one's own -/

section Own

variable [DecidableEq A] [DecidableEq F] {L : A → A → Prop} {t b : A} {g : F}

/-- Map a copy of the frame `g` at `a`, for which the frame `f` is used. It was put together at `t`,
which is empty afterwards. -/
def own (s : Sharing A F C) (t a : A) (f g : F) : Sharing A F C :=
  ((s.map t none).map a (some (f, true))).write f (s.mem g)

/-- The copy is put together at `t`, where the new frame is mapped first. -/
theorem own_eq (h : a ≠ t) (z : C) :
  ((((s.map t (some (f, true))).write f z).write f (s.mem g)).map a (some (f, true))).map t none
    = s.own t a f g
  := by
  apply Sharing.ext
  · funext x
    simp only [map, write, own]
    by_cases hx : x = t
    · subst hx
      rw [Function.update_self, Function.update_of_ne (Ne.symm h), Function.update_self]
    · rw [Function.update_of_ne hx]
      by_cases hxa : x = a
      · subst hxa
        rw [Function.update_self, Function.update_self]
      · rw [Function.update_of_ne hxa, Function.update_of_ne hx, Function.update_of_ne hxa,
          Function.update_of_ne hx]
  · simp only [map, write, own]
    rw [Function.update_idem]

theorem own_maps_self :
  (s.own t a f g).maps a = some (f, true)
  := by rw [own, write_maps, map_maps_self]

/-- A frame of one's own keeps the invariant. -/
theorem Apart.own (h : s.Apart L) (hf : s.Fresh f) (t a : A) (g : F) :
  (s.own t a f g).Apart L
  := by
  apply Apart.write
  apply Apart.map_fresh (h.map_none t) (hf.map_none t)

/-- Nobody notices that a frame was copied. -/
theorem Fresh.view_own (hf : s.Fresh f) (ha : s.maps a = some (g, w)) (hb : b ≠ t) :
  (s.own t a f g).view b = s.view b
  := by
  by_cases hba : b = a
  · subst hba
    rw [Sharing.own, view_write_self (map_maps_self _), view, ha]
    rfl
  · have hview : ((s.map t none).map a (some (f, true))).view b = s.view b := by
      rw [view_map_of_ne hba, view_map_of_ne hb]
    rw [Sharing.own, view, view, write_maps, map_maps_of_ne hba, map_maps_of_ne hb]
    cases hm : s.maps b with
    | none => rfl
    | some m =>
        have hne : m.1 ≠ f := by
          rintro rfl
          apply hf b m.2 hm
        rw [Option.map_some, Option.map_some, write_mem_of_ne hne, map_mem, map_mem]

end Own

end Sharing
