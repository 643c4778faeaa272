import Jos.Lib.EndsOr

/-!
# Programs on a part of the state

A program over states `τ` runs on every state `σ` that has a `τ` as a part, and leaves the rest of
the state alone.
-/

/-- A way to stop, seen from a state of which the program knew a part. -/
def Stop.map {σ τ : Type} (g : τ → σ) : Stop τ → Stop σ
  | .panic msg => .panic msg
  | .fault addr => .fault addr
  | .leave t => .leave (g t)

namespace Prog

variable {σ τ α β : Type}

/-- Run a program on the part `part s` of the state `s`, with `put` putting the part back. -/
def zoom (part : σ → τ) (put : τ → σ → σ) (m : Prog τ α) : Prog σ α :=
  fun s => match m (part s) with
    | .ok (a, t) => .ok (a, put t s)
    | .error stop => .error (stop.map (fun t => put t s))

variable {part : σ → τ} {put : τ → σ → σ} {m : Prog τ α} {s : σ}

theorem zoom_of_eq {a : α} {t : τ} (h : m (part s) = .ok (a, t)) :
  zoom part put m s = .ok (a, put t s)
  := by
  unfold zoom
  rw [h]

theorem zoom_of_error {stop : Stop τ} (h : m (part s) = .error stop) :
  zoom part put m s = .error (stop.map (fun t => put t s))
  := by
  unfold zoom
  rw [h]

/-- How a program ends on the whole state. -/
@[simp]
theorem endsOr_zoom {B : Stop σ → Prop} {Q : α → σ → Prop} :
  (zoom part put m).EndsOr B s Q ↔
    m.EndsOr (fun stop => B (stop.map (fun t => put t s))) (part s) (fun a t => Q a (put t s))
  := by
  cases h : m (part s) with
  | ok r => rw [endsOr_of_eq h, endsOr_of_eq (zoom_of_eq h)]
  | error stop => rw [endsOr_of_error h, endsOr_of_error (zoom_of_error h)]

end Prog
