import Jos.User.Untrusted

/-!
# Where a failed `spawn` cleans up

`spawn` may fail in four stages.  It has cleaned up after a failure if there was nothing to
clean up yet, or if it went through one of the exits that release what it has taken.  The exits that
do not are reached: if no environment can be created, the file stays open.
-/

namespace Jos

namespace User

open Bytes Prog View

variable {w w' : World} {elfBuf prog argv buf path : Word} {name : List Byte}

/-- A `spawn` that returns a negative value has cleaned up exactly if it gave up before the file was
open, on its header, or for lack of memory for a segment with nothing mapped at `UTEMP` at the
call. -/
theorem spawn_clean_iff (hw : w.Wf) {elfBuf prog argv : Word} {r : Except Failure Word}
    (h : spawn memory elfBuf prog argv w = .ok (r, w')) (hneg : isError (returned r) = true) :
  ∃ f, r = .error f ∧ (Clean w w' ↔ Releases w f.place)
  := by
  have hend := (spawn_maps hw elfBuf prog argv).of_eq h
  cases r with
  | ok child =>
      rw [returned, show isError child = false from hend] at hneg
      cases hneg
  | error f => exact ⟨f, rfl, hend⟩

/-- The headers of an image with one segment, of which nothing is in the file. -/
def bssHeader : Memory :=
  write32 (write32 (write32 (farHeader 52) 52 1) 60 0x800000) 72 4096

/-- A file can be opened and an environment created for it, but there is no page for its segment. -/
def withoutPage : World :=
  (oneFile (headerOnly bssHeader) 5).fated (fun n => if n = 4 then -1 else 5) (fun _ => 0)

/-- Where and with which error a run of `spawn` fails. -/
def failureOf : Except (Stop World) (Except Failure Word × World) → Option Failure
  | .ok (.error f, _) => some f
  | _ => none

theorem failureOf_eq_some {res : Except (Stop World) (Except Failure Word × World)} {f : Failure}
    (h : failureOf res = some f) :
  ∃ w', res = .ok (.error f, w')
  := by
  match res, h with
  | .ok (.error _, w'), h => exact ⟨w', by rw [Option.some.inj h]⟩

/-- Without a page for a segment the file is closed and the child destroyed. -/
theorem spawn_clean_withoutPage :
  ∃ w', spawn memory 0x1800 0x1000 0x1010 withoutPage
      = .ok (.error ⟨.sysPageAlloc, -E_NO_MEM⟩, w')
    ∧ Clean withoutPage w'
  := by
  have hfails : failureOf (spawn memory 0x1800 0x1000 0x1010 withoutPage)
      = some ⟨.sysPageAlloc, -E_NO_MEM⟩ := by decide +kernel
  obtain ⟨w', heq⟩ := failureOf_eq_some hfails
  obtain ⟨f, hf, hiff⟩ := spawn_clean_iff ((oneFile_wf _ _).fated _ _) heq (by decide)
  obtain rfl := Except.error.inj hf
  exact ⟨w', heq, hiff.mpr (Or.inr (Or.inr ⟨rfl, rfl⟩))⟩

/-- If no environment can be created for an image, the file stays open. -/
theorem spawn_notForked {f : File} {args : List (Word × List Byte)} (h : w.Ready buf path name)
    (hf : w.disk name = f) (hargs : w.HasArgsBeside buf argv args) (hgo : w.Copies name f)
    (hno : ∀ n, w.fate n = 0) :
  ∃ x w', spawn memory buf path argv w = .ok (.error x, w') ∧ isError x.code = true
    ∧ x.place = .sysExofork
  := by
  have hend : (spawn memory buf path argv).EndsOr (fun _ => False) w
      (fun r _ => ∃ x, r = .error x ∧ isError x.code = true ∧ x.place = .sysExofork) := by
    apply spawn_reaches h hf hargs World.Header.memory_shows
    · exact fun x _ hx _ hplace => ⟨x, rfl, hx, hplace hgo⟩
    · rintro _ i child w' hloading _ _ ⟨n, rfl⟩
      exact (hloading.loader.ne_zero (hno n)).elim
  obtain ⟨r, w', heq, x, rfl, hx, hplace⟩ := hend.returns
  exact ⟨x, w', heq, hx, hplace⟩

/-- There is a `spawn` that returns an error and has not cleaned up. -/
theorem spawn_not_clean :
  ∃ (w w' : World) (elfBuf prog argv : Word) (r : Except Failure Word), w.Wf
    ∧ spawn memory elfBuf prog argv w = .ok (r, w') ∧ isError (returned r) = true ∧ ¬ Clean w w'
  := by
  have himage := farHeader_isImage 0
  obtain ⟨x, w', heq, hx, hplace⟩ := spawn_notForked (oneFile_ready (headerOnly (farHeader 0)) 0) rfl
    (oneFile_hasArgs _ 0) ⟨oneFile_willing _ (by decide), oneFile_canOpen _ (by decide), himage⟩
    (fun _ => rfl)
  refine ⟨_, w', _, _, _, _, oneFile_wf _ 0, heq, hx, ?_⟩
  have hiff : Clean _ w' ↔ _ := (spawn_maps (oneFile_wf (headerOnly (farHeader 0)) 0) _ _ _).of_eq heq
  rw [hiff, Releases, hplace]
  rintro (h | h | ⟨h, -⟩)
  · cases h
  · cases h
  · cases h

end User

end Jos
