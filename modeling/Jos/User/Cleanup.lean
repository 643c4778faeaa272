import Jos.Lib.EndsOr
import Jos.User.Spawn

/-!
# What a failed `spawn` leaves behind

Opening the file takes a descriptor, the new environment is one that was not there, and the pages
of the stack and of the segments are put together at `UTEMP`.  Here each function is described by
what it does to the mappings of the caller and to the environments there are, whatever it does to
memory.  A failed `spawn` has cleaned up if it failed before the file was open, or went through
one of the two exits that close it and has nothing mapped at `UTEMP`.
-/

namespace Jos

namespace User

open Bytes Prog View

variable {w w' w'' : World} {e va : Word}

/-! ### Runs that change no mappings -/

/-- From `w` to `w'` no mapping changed, and no environment came or went. -/
structure SameProcs (w w' : World) : Prop where
  self : w'.self = w.self
  procs : w'.procs = w.procs
  next : w.next ≤ w'.next

namespace SameProcs

theorem composes :
  Composes SameProcs
  := by
  constructor
  case refl => exact fun w => ⟨rfl, rfl, Nat.le_refl _⟩
  case trans =>
    intro w w' w'' h h'
    exact ⟨h'.self.trans h.self, h'.procs.trans h.procs, Nat.le_trans h.next h'.next⟩

theorem entry (h : SameProcs w w') :
  w'.entry = w.entry
  := by
  funext e va
  rw [World.entry, World.entry, h.procs]

end SameProcs

theorem OnlyMem.sameProcs (h : OnlyMem w w') :
  SameProcs w w'
  := by
  obtain ⟨m, rfl⟩ := h
  exact ⟨rfl, rfl, Nat.le_refl _⟩

theorem load_same (va : Word) :
  Keeps SameProcs (load va)
  := (load_keeps va).mono (fun _ _ h => h.sameProcs)

theorem store_same (va : Word) (b : Byte) :
  Keeps SameProcs (store va b)
  := (store_keeps va b).mono (fun _ _ h => h.sameProcs)

theorem load32_same (va : Word) :
  Keeps SameProcs (load32 va)
  := (load32_keeps va).mono (fun _ _ h => h.sameProcs)

theorem store32_same (va x : Word) :
  Keeps SameProcs (store32 va x)
  := (store32_keeps va x).mono (fun _ _ h => h.sameProcs)

theorem strlen_same (s : Word) :
  Keeps SameProcs (strlen s)
  := (strlen_keeps s).mono (fun _ _ h => h.sameProcs)

theorem request_same :
  Keeps SameProcs request
  := by
  apply keeps_get_bind
  intro w
  rw [mayEnd_bind, mayEnd_set, mayEnd_pure]
  exact ⟨rfl, rfl, Nat.le_refl _⟩

theorem requestTable_same :
  Keeps SameProcs requestTable
  := by
  apply keeps_get_bind
  intro w
  rw [mayEnd_bind, mayEnd_set, mayEnd_pure]
  exact ⟨rfl, rfl, Nat.le_refl _⟩

theorem mapped_same (va : Word) :
  Keeps SameProcs (mapped va)
  := by
  apply keeps_bind SameProcs.composes (keeps_get SameProcs.composes)
  exact fun _ => keeps_pure SameProcs.composes _

theorem fdLookup_same (fdnum : Word) :
  Keeps SameProcs (fdLookup fdnum)
  := by
  apply keeps_ite (keeps_pure SameProcs.composes _)
  apply keeps_bind SameProcs.composes (mapped_same _)
  exact fun _ => keeps_pure SameProcs.composes _

theorem fsipc_same {α : Type} {serve : Prog World α} (h : Keeps SameProcs serve) :
  Keeps SameProcs (fsipc serve)
  := by
  apply keeps_bind SameProcs.composes requestTable_same
  exact fun _ => keeps_ite (keeps_panic _) h

theorem serveFlush_same (fileid : Word) :
  Keeps SameProcs (serveFlush fileid)
  := by
  apply keeps_bind SameProcs.composes request_same
  intro a
  apply keeps_bind SameProcs.composes (keeps_get SameProcs.composes)
  intro w
  apply keeps_ite (keeps_pure SameProcs.composes _)
  exact keeps_ite (keeps_pure SameProcs.composes _) (keeps_pure SameProcs.composes _)

/-- What the file server opens is not mapped yet. -/
theorem serveOpen_same (path : List Byte) :
  Keeps SameProcs (serveOpen path)
  := by
  apply keeps_bind SameProcs.composes request_same
  intro a
  apply keeps_get_bind
  intro w
  rw [mayEnd_ite]
  refine ⟨fun _ => keeps_pure SameProcs.composes _ w, fun _ => ?_⟩
  rw [mayEnd_ite]
  refine ⟨fun _ => keeps_pure SameProcs.composes _ w, fun _ => ?_⟩
  rw [mayEnd_bind, mayEnd_set, mayEnd_pure]
  exact ⟨rfl, rfl, Nat.le_succ _⟩

theorem serveRead_same (fileid n : Word) :
  Keeps SameProcs (serveRead fileid n)
  := by
  apply keeps_bind SameProcs.composes request_same
  intro a
  apply keeps_get_bind
  intro w
  rw [mayEnd_ite]
  refine ⟨fun _ => keeps_pure SameProcs.composes _ w, fun _ => ?_⟩
  cases w.files fileid with
  | none => exact keeps_pure SameProcs.composes _ w
  | some file =>
      simp only
      rw [mayEnd_bind, mayEnd_set, mayEnd_pure]
      exact ⟨rfl, rfl, Nat.le_refl _⟩

theorem memmove_same (dst : Word) (bs : List Byte) :
  Keeps SameProcs (memmove dst bs)
  := by
  induction bs generalizing dst with
  | nil => exact keeps_pure SameProcs.composes _
  | cons b bs ih => exact keeps_bind SameProcs.composes (store_same _ _) (fun _ => ih _)

theorem devfileFlush_same (fd : Word) :
  Keeps SameProcs (devfileFlush fd)
  := by
  apply keeps_bind SameProcs.composes (load32_same _)
  exact fun _ => fsipc_same (serveFlush_same _)

theorem devfileRead_same (fd buf n : Word) :
  Keeps SameProcs (devfileRead fd buf n)
  := by
  apply keeps_bind SameProcs.composes (load32_same _)
  intro _
  apply keeps_bind SameProcs.composes (fsipc_same (serveRead_same _ _))
  intro r
  cases r with
  | error r => exact keeps_pure SameProcs.composes _
  | ok bs =>
      apply keeps_bind SameProcs.composes (memmove_same _ _)
      exact fun _ => keeps_pure SameProcs.composes _

theorem read_same (fdnum buf n : Word) :
  Keeps SameProcs (read fdnum buf n)
  := by
  apply keeps_bind SameProcs.composes (fdLookup_same _)
  intro r
  cases r with
  | error r => exact keeps_pure SameProcs.composes _
  | ok fd =>
      apply keeps_bind SameProcs.composes (load32_same _)
      intro _
      apply keeps_ite (keeps_pure SameProcs.composes _)
      apply keeps_bind SameProcs.composes (load32_same _)
      intro _
      exact keeps_ite (keeps_pure SameProcs.composes _) (devfileRead_same _ _ _)

/-- Reading on changes no mappings, if it comes to an end. -/
theorem readnFrom_same (fdnum buf n : Word) (k : Nat) (tot : Word) (w : World) :
  (readnFrom fdnum buf n k tot).EndsOr (fun _ => True) w (fun _ w' => SameProcs w w')
  := by
  induction k generalizing tot w with
  | zero => exact endsOr_leave.mpr trivial
  | succ k ih =>
      rw [readnFrom, endsOr_ite]
      refine ⟨fun _ => ?_, fun _ => endsOr_pure _ |>.mpr (SameProcs.composes.refl w)⟩
      rw [endsOr_bind]
      apply ((read_same _ _ _).endsOr w).mono
      intro m w' h
      rw [endsOr_ite]
      refine ⟨fun _ => endsOr_pure _ |>.mpr h, fun _ => ?_⟩
      rw [endsOr_ite]
      refine ⟨fun _ => endsOr_pure _ |>.mpr h, fun _ => ?_⟩
      apply (ih _ w').mono
      exact fun _ _ h' => SameProcs.composes.trans h h'

theorem readn_same (fdnum buf n : Word) (w : World) :
  (readn fdnum buf n).EndsOr (fun _ => True) w (fun _ w' => SameProcs w w')
  := readnFrom_same fdnum buf n _ 0 w

theorem seek_same (fdnum offset : Word) :
  Keeps SameProcs (seek fdnum offset)
  := by
  apply keeps_bind SameProcs.composes (fdLookup_same _)
  intro r
  cases r with
  | error r => exact keeps_pure SameProcs.composes _
  | ok fd =>
      apply keeps_bind SameProcs.composes (store32_same _ _)
      exact fun _ => keeps_pure SameProcs.composes _

theorem loadBytes_same (a : Word) (n : Nat) :
  Keeps SameProcs (loadBytes a n)
  := by
  induction n generalizing a with
  | zero => exact keeps_pure SameProcs.composes _
  | succ n ih =>
      apply keeps_bind SameProcs.composes (load_same _)
      intro _
      apply keeps_bind SameProcs.composes (ih _)
      exact fun _ => keeps_pure SameProcs.composes _

/-! ### System calls that change a mapping -/

theorem SameProcs.setEntry (h : SameProcs w w') (e va : Word) (m : Option Mapped) :
  SameProcs (w.setEntry e va m) (w'.setEntry e va m)
  := by
  constructor
  case self => exact h.self
  case procs => rw [World.setEntry, World.setEntry, h.procs]
  case next => exact h.next

section Calls

variable {B : Stop World → Prop} {perm : Word}

/-- A call that is refused changes nothing. -/
theorem endsOr_refused {Q : Word → World → Prop} {w : World} {r : Word} (hr : isError r = true) :
  (pure r : Prog World Word).EndsOr B w (fun r w' => (isError r = true ∧ SameProcs w w') ∨ Q r w')
  := endsOr_pure _ |>.mpr (Or.inl ⟨hr, SameProcs.composes.refl w⟩)

/-- A new page is one that was not there, or nothing changes. -/
theorem sysPageAlloc_maps (envid va perm : Word) (w : World) :
  (sysPageAlloc envid va perm).EndsOr B w (fun r w' =>
    (isError r = true ∧ SameProcs w w') ∨
    (isError r = false ∧ SameProcs (w.setEntry (w.key envid) va (some ⟨w.next, perm⟩)) w'))
  := by
  rw [sysPageAlloc, endsOr_ite]
  refine ⟨fun _ => endsOr_refused rfl, fun _ => ?_⟩
  rw [endsOr_ite]
  refine ⟨fun _ => endsOr_refused rfl, fun _ => ?_⟩
  rw [endsOr_bind, endsOr_get]
  cases w.find envid with
  | none => exact endsOr_refused rfl
  | some p =>
      simp only
      rw [endsOr_bind, request, endsOr_bind, endsOr_get, endsOr_bind, endsOr_set, endsOr_pure,
        endsOr_ite]
      constructor
      · intro _
        rw [endsOr_pure]
        exact Or.inl ⟨rfl, rfl, rfl, Nat.le_refl _⟩
      · intro _
        rw [endsOr_bind, endsOr_modify, endsOr_pure]
        exact Or.inr ⟨rfl, rfl, rfl, Nat.le_succ _⟩

/-- A page is mapped, or nothing changes. -/
theorem sysPageMap_maps (srcenvid srcva dstenvid dstva perm : Word) (w : World) :
  (sysPageMap srcenvid srcva dstenvid dstva perm).EndsOr B w (fun r w' =>
    (isError r = true ∧ SameProcs w w') ∨
    (isError r = false ∧ ∃ m, SameProcs (w.setEntry (w.key dstenvid) dstva (some m)) w'))
  := by
  rw [sysPageMap, endsOr_bind, endsOr_get]
  cases w.find srcenvid with
  | none => exact endsOr_refused rfl
  | some p =>
      simp only
      cases w.find dstenvid with
      | none => exact endsOr_refused rfl
      | some p' =>
          simp only
          rw [endsOr_ite]
          refine ⟨fun _ => endsOr_refused rfl, fun _ => ?_⟩
          rw [endsOr_ite]
          refine ⟨fun _ => endsOr_refused rfl, fun _ => ?_⟩
          cases w.entry (w.key srcenvid) srcva with
          | none => exact endsOr_refused rfl
          | some m =>
              simp only
              rw [endsOr_ite]
              refine ⟨fun _ => endsOr_refused rfl, fun _ => ?_⟩
              rw [endsOr_bind, requestTable, endsOr_bind, endsOr_get, endsOr_bind, endsOr_set,
                endsOr_pure, endsOr_ite]
              constructor
              · intro _
                rw [endsOr_pure]
                exact Or.inl ⟨rfl, rfl, rfl, Nat.le_refl _⟩
              · intro _
                rw [endsOr_bind, endsOr_modify, endsOr_pure]
                exact Or.inr ⟨rfl, ⟨m.page, perm⟩, rfl, rfl, Nat.le_refl _⟩

/-- A page is unmapped, or nothing changes. -/
theorem sysPageUnmap_maps (envid va : Word) (w : World) :
  (sysPageUnmap envid va).EndsOr B w (fun r w' =>
    (isError r = true ∧ SameProcs w w') ∨
    (isError r = false ∧ SameProcs (w.setEntry (w.key envid) va none) w'))
  := by
  rw [sysPageUnmap, endsOr_ite]
  refine ⟨fun _ => endsOr_refused rfl, fun _ => ?_⟩
  rw [endsOr_bind, endsOr_get]
  cases w.find envid with
  | none => exact endsOr_refused rfl
  | some p =>
      simp only
      rw [endsOr_bind, endsOr_modify, endsOr_pure]
      exact Or.inr ⟨rfl, rfl, rfl, Nat.le_refl _⟩

end Calls

/-! ### Descriptors that come and go -/

/-- A descriptor that is open is closed. -/
theorem close_maps {i : Nat} (hrun : (w.procs w.self).isSome) (hi : i < MAXFD)
    (hopen : (w.entry w.self (fdAddr i)).isSome) :
  (close (BitVec.ofNat 32 i)).EndsOr (fun _ => True) w (fun _ w' =>
    SameProcs (w.setEntry w.self (fdAddr i) none) w')
  := by
  have hlookup : fdLookup (BitVec.ofNat 32 i) w = .ok (.ok (fdAddr i), w) := by
    rw [fdLookup_eq hi, if_pos hopen]
  rw [close, endsOr_bind, endsOr_of_eq hlookup]
  simp only
  rw [fdClose, endsOr_bind, fd2num_fdAddr hi, endsOr_of_eq hlookup]
  simp only
  rw [if_neg (not_not.mpr rfl), endsOr_bind]
  apply ((load32_same _).endsOr w).mono
  intro devId w1 h1
  rw [endsOr_bind]
  have hflush : Keeps SameProcs (devClose (fdAddr i) (devLookup devId)) :=
    keeps_ite (keeps_pure SameProcs.composes _) (devfileFlush_same _)
  apply (hflush.endsOr w1).mono
  intro r w2 h2
  have h02 := SameProcs.composes.trans h1 h2
  have hkey : w2.key 0 = w.self := by rw [World.key, if_pos rfl, h02.self]
  rw [endsOr_bind]
  -- the page of the `struct Fd` is unmapped whether or not the file was written
  have hfind : ∃ p, w2.find 0 = some p := by
    obtain ⟨p, hp⟩ := Option.isSome_iff_exists.mp hrun
    use p
    rw [World.find, hkey, h02.procs, hp]
  obtain ⟨p, hp⟩ := hfind
  rw [endsOr_of_eq (sysPageUnmap_eq (userPageAddr_fdAddr hi) hp), endsOr_pure, hkey]
  exact h02.setEntry _ _ _

/-- A file that is opened takes a descriptor that was not open. -/
theorem openFile_maps (path : Word) (w : World) :
  (openFile path).EndsOr (fun _ => True) w (fun r w' =>
    match r with
    | .error _ => SameProcs w w'
    | .ok fd => ∃ i < MAXFD, fd = BitVec.ofNat 32 i ∧ w.entry w.self (fdAddr i) = none
        ∧ ∃ m, SameProcs (w.setEntry w.self (fdAddr i) (some m)) w')
  := by
  rw [openFile, endsOr_bind]
  apply ((strlen_same _).endsOr w).mono
  intro len w1 h1
  rw [endsOr_ite]
  refine ⟨fun _ => endsOr_pure _ |>.mpr h1, fun _ => ?_⟩
  rw [endsOr_bind]
  obtain ⟨-, heq⟩ | ⟨i, hi, hnone, heq⟩ := fdAlloc_cases w1
  · rw [endsOr_of_eq heq]
    exact endsOr_pure _ |>.mpr h1
  · rw [endsOr_of_eq heq]
    simp only
    rw [endsOr_bind]
    apply ((loadBytes_same _ _).endsOr w1).mono
    intro name w2 h2
    rw [endsOr_bind]
    apply ((fsipc_same (serveOpen_same name)).endsOr w2).mono
    intro r w3 h3
    have h03 := SameProcs.composes.trans (SameProcs.composes.trans h1 h2) h3
    have hnone0 : w.entry w.self (fdAddr i) = none := by
      rw [← h1.entry, ← h1.self]
      exact hnone
    cases r with
    | error r =>
        simp only
        have hlookup : fdLookup (BitVec.ofNat 32 i) w3 = .ok (.error (-E_INVAL), w3) := by
          rw [fdLookup_eq hi, if_neg]
          rw [h03.entry, h03.self, hnone0]
          exact Bool.false_ne_true
        have hclose : fdClose (fdAddr i) false w3 = .ok (0, w3) := by
          rw [fdClose, fd2num_fdAddr hi, bind_of_eq hlookup]
          rfl
        rw [endsOr_bind, endsOr_of_eq hclose]
        exact endsOr_pure _ |>.mpr h03
    | ok q =>
        simp only
        rw [endsOr_bind]
        apply (requestTable_same.endsOr w3).mono
        intro t w4 h4
        have h04 := SameProcs.composes.trans h03 h4
        rw [endsOr_ite]
        refine ⟨fun _ => endsOr_leave.mpr trivial, fun _ => ?_⟩
        rw [endsOr_bind, endsOr_modify, endsOr_pure, fd2num_fdAddr hi, h04.self]
        exact ⟨i, hi, rfl, hnone0, _, h04.setEntry _ _ _⟩

/-! ### Setting up a child -/

/-- From `w` to `w'` the mappings of the caller changed at `UTEMP` only, and no environment came or
went. -/
structure Aside (w w' : World) : Prop where
  self : w'.self = w.self
  next : w.next ≤ w'.next
  procs : ∀ e, (w'.procs e).isSome = (w.procs e).isSome
  entries : ∀ va, PGNUM va ≠ PGNUM UTEMP → w'.entry w.self va = w.entry w.self va

namespace Aside

theorem composes :
  Composes Aside
  := by
  constructor
  case refl => exact fun w => ⟨rfl, Nat.le_refl _, fun _ => rfl, fun _ _ => rfl⟩
  case trans =>
    intro w w' w'' h h'
    constructor
    case self => exact h'.self.trans h.self
    case next => exact Nat.le_trans h.next h'.next
    case procs => exact fun e => (h'.procs e).trans (h.procs e)
    case entries =>
      intro va hva
      have hrest := h'.entries va hva
      rw [h.self] at hrest
      exact hrest.trans (h.entries va hva)

theorem setEntry (m : Option Mapped) (h : e = w.self → PGNUM va = PGNUM UTEMP) :
  Aside w (w.setEntry e va m)
  := by
  constructor
  case self => rfl
  case next => exact Nat.le_refl _
  case procs => exact fun _ => isSome_setEntry _ _
  case entries =>
    intro va' hva'
    apply entry_setEntry_of_ne
    intro he hnum
    exact hva' (hnum.trans (h he.symm))

theorem running (h : Aside w w') (hw : (w.procs w.self).isSome) :
  (w'.procs w'.self).isSome
  := by
  rw [h.self, h.procs]
  exact hw

end Aside

theorem SameProcs.aside (h : SameProcs w w') :
  Aside w w'
  := by
  constructor
  case self => exact h.self
  case next => exact h.next
  case procs => exact fun e => congrArg (fun procs : Word → Option Proc => (procs e).isSome) h.procs
  case entries => exact fun _ _ => congrFun (congrFun h.entry _) _

/-- What follows a change of a mapping. -/
theorem SameProcs.aside_setEntry {m : Option Mapped} (h : SameProcs (w.setEntry e va m) w')
    (hva : e = w.self → PGNUM va = PGNUM UTEMP) :
  Aside w w'
  := Aside.composes.trans (Aside.setEntry m hva) h.aside

/-- How the mapping of a part of a segment ends that starts in `w` with nothing at `UTEMP`. -/
def MapEnd (w : World) (r : Option Failure) (w' : World) : Prop :=
  Aside w w' ∧ match r with
    | none => w'.entry w.self UTEMP = none
    | some f => (f.place = .sysPageAlloc ∧ w'.entry w.self UTEMP = none) ∨
        ((f.place = .seek ∨ f.place = .readn)
          ∧ ∃ m, w'.entry w.self UTEMP = some m ∧ w.next ≤ m.page)

theorem MapEnd.after {r : Option Failure} (h : MapEnd w' r w'') (ha : Aside w w') :
  MapEnd w r w''
  := by
  obtain ⟨h', hr⟩ := h
  rw [ha.self] at hr
  refine ⟨Aside.composes.trans ha h', ?_⟩
  cases r with
  | none => exact hr
  | some f =>
      obtain hr | ⟨hf, m, hm, hnext⟩ := hr
      · exact Or.inl hr
      · exact Or.inr ⟨hf, m, hm, Nat.le_trans ha.next hnext⟩

section Child

variable {child : Word} (hrun : (w.procs w.self).isSome) (hzero : child ≠ 0)
  (hne : child ≠ w.self)
include hrun hzero hne

/-- The stack is given to the child, and nothing is left at `UTEMP`, or that failed. -/
theorem giveStack_maps (initEsp : Word) :
  (giveStack child initEsp).EndsOr (fun _ => True) w (fun r w' =>
    Aside w w' ∧ ∀ esp, r = .ok esp → w'.entry w.self UTEMP = none)
  := by
  have hchild : w.key child = child := by rw [World.key, if_neg hzero]
  have haway : child = w.self → PGNUM (USTACKTOP - PAGE) = PGNUM UTEMP := fun h => (hne h).elim
  have hunmap : ∀ {w1}, Aside w w1 → (sysPageUnmap 0 UTEMP).EndsOr (fun _ => True) w1
      (fun r w' => Aside w w' ∧ (isError r = false → w'.entry w.self UTEMP = none)) := by
    intro w1 h1
    apply (sysPageUnmap_maps 0 UTEMP w1).mono
    have hkey : w1.key 0 = w1.self := by rw [World.key, if_pos rfl]
    rintro r w2 (⟨herr, h2⟩ | ⟨-, h2⟩)
    · refine ⟨Aside.composes.trans h1 h2.aside, fun hok => ?_⟩
      rw [herr] at hok
      cases hok
    · rw [hkey] at h2
      refine ⟨Aside.composes.trans h1 (h2.aside_setEntry (fun _ => rfl)), fun _ => ?_⟩
      rw [← h1.self, h2.entry]
      exact entry_setEntry (h1.running hrun) rfl _
  have hfail : ∀ {w1} {r : Word}, Aside w w1 →
      (sysPageUnmap 0 UTEMP >>= fun _ => (pure (.error r) : Prog World (Except Word Word))).EndsOr
        (fun _ => True) w1 (fun r w' => Aside w w' ∧ ∀ esp, r = .ok esp →
          w'.entry w.self UTEMP = none) := by
    intro w1 r h1
    rw [endsOr_bind]
    apply (hunmap h1).mono
    rintro _ w2 ⟨h2, -⟩
    rw [endsOr_pure]
    refine ⟨h2, fun _ h => ?_⟩
    cases h
  rw [giveStack, endsOr_bind]
  apply (sysPageMap_maps _ _ _ _ _ w).mono
  rintro r w1 (⟨herr, h1⟩ | ⟨hok, m, h1⟩)
  · rw [if_pos herr]
    exact hfail h1.aside
  · rw [hchild] at h1
    have h01 : Aside w w1 := h1.aside_setEntry haway
    rw [if_neg (by rw [hok]; exact Bool.false_ne_true), endsOr_bind]
    apply (hunmap h01).mono
    rintro r' w2 ⟨h02, hnone⟩
    rw [endsOr_ite]
    refine ⟨fun _ => hfail h02, fun hok' => ?_⟩
    rw [endsOr_pure]
    refine ⟨h02, fun _ _ => hnone ?_⟩
    rw [Bool.not_eq_true] at hok'
    exact hok'

/-- `init_stack` leaves nothing at `UTEMP` if it succeeds. -/
theorem initStack_maps (argv : Word) :
  (initStack child argv).EndsOr (fun _ => True) w (fun r w' =>
    Aside w w' ∧ ∀ esp, r = .ok esp → w'.entry w.self UTEMP = none)
  := by
  have hfail : ∀ {w1} {r : Word}, Aside w w1 →
      (pure (.error r) : Prog World (Except Word Word)).EndsOr (fun _ => True) w1
        (fun r w' => Aside w w' ∧ ∀ esp, r = .ok esp → w'.entry w.self UTEMP = none) := by
    intro w1 r h1
    rw [endsOr_pure]
    refine ⟨h1, fun _ h => ?_⟩
    cases h
  rw [initStack, endsOr_bind]
  apply ((countArgs_keeps _ _ _ _).endsOr w).mono
  rintro ⟨argc, size⟩ w1 h1
  have h01 := h1.sameProcs.aside
  simp only
  rw [endsOr_ite]
  refine ⟨fun _ => hfail h01, fun _ => ?_⟩
  rw [fillStack, endsOr_bind]
  apply (sysPageAlloc_maps _ _ _ w1).mono
  rintro r w2 (⟨herr, h2⟩ | ⟨hok, h2⟩)
  · rw [if_pos herr]
    exact hfail (Aside.composes.trans h01 h2.aside)
  · have h02 : Aside w w2 := by
      apply Aside.composes.trans h01
      apply h2.aside_setEntry
      exact fun _ => rfl
    rw [if_neg (by rw [hok]; exact Bool.false_ne_true), endsOr_bind]
    apply ((copyArgs_keeps _ _ _ _ _).endsOr w2).mono
    intro stringStore w3 h3
    rw [endsOr_bind]
    apply ((store32_keeps _ _).endsOr w3).mono
    intro _ w4 h4
    rw [endsOr_ite]
    refine ⟨fun _ => endsOr_panic _ |>.mpr trivial, fun _ => ?_⟩
    rw [endsOr_bind]
    apply ((store32_keeps _ _).endsOr w4).mono
    intro _ w5 h5
    rw [endsOr_bind]
    apply ((store32_keeps _ _).endsOr w5).mono
    intro _ w6 h6
    have h26 := OnlyMem.composes.trans (OnlyMem.composes.trans h3 h4)
      (OnlyMem.composes.trans h5 h6)
    have h06 := Aside.composes.trans h02 h26.sameProcs.aside
    apply (giveStack_maps (h06.running hrun) hzero (by rw [h06.self]; exact hne) _).mono
    rintro r w7 ⟨h67, hnone⟩
    rw [h06.self] at hnone
    exact ⟨Aside.composes.trans h06 h67, hnone⟩

omit hzero hne in
/-- A page is read to `UTEMP`, or it was not to be had, or it was not read and is left there. -/
theorem readPage_maps (fd filesz fileoffset i : Word) (htemp : w.entry w.self UTEMP = none) :
  (readPage fd filesz fileoffset i).EndsOr (fun _ => True) w (fun r w' =>
    Aside w w' ∧ ∀ f, r = some f → MapEnd w r w')
  := by
  have hkey : w.key 0 = w.self := by rw [World.key, if_pos rfl]
  rw [readPage, endsOr_bind]
  apply (sysPageAlloc_maps _ _ _ w).mono
  rintro r w1 (⟨herr, h1⟩ | ⟨hok, h1⟩)
  · rw [if_pos herr, endsOr_pure]
    refine ⟨h1.aside, fun f hf => ⟨h1.aside, ?_⟩⟩
    left
    rw [h1.entry]
    exact ⟨rfl, htemp⟩
  · rw [hkey] at h1
    have h01 : Aside w w1 := h1.aside_setEntry (fun _ => rfl)
    have hpage : ∀ {w2}, SameProcs w1 w2 → w2.entry w.self UTEMP = some ⟨w.next, PTE_PUW⟩ := by
      intro w2 h2
      rw [h2.entry, h1.entry]
      exact entry_setEntry hrun rfl _
    rw [if_neg (by rw [hok]; exact Bool.false_ne_true), endsOr_bind]
    apply ((seek_same _ _).endsOr w1).mono
    intro r2 w2 h2
    have h02 := Aside.composes.trans h01 h2.aside
    rw [endsOr_ite]
    constructor
    · intro _
      rw [endsOr_pure]
      exact ⟨h02, fun f hf => ⟨h02, Or.inr ⟨Or.inl rfl, _, hpage h2, Nat.le_refl _⟩⟩⟩
    · intro _
      rw [endsOr_bind]
      apply (readn_same _ _ _ w2).mono
      intro r3 w3 h3
      have h13 := SameProcs.composes.trans h2 h3
      have h03 := Aside.composes.trans h01 h13.aside
      rw [endsOr_ite]
      constructor
      · intro _
        rw [endsOr_pure]
        exact ⟨h03, fun f hf => ⟨h03, Or.inr ⟨Or.inr rfl, _, hpage h13, Nat.le_refl _⟩⟩⟩
      · intro _
        rw [endsOr_pure]
        refine ⟨h03, fun f hf => ?_⟩
        cases hf

/-- A page is mapped in the child, and nothing is left at `UTEMP`, or it was not to be had, or it
was not read and is left there. -/
theorem mapPage_maps (msg : String) (va fd filesz fileoffset perm i : Word)
    (htemp : w.entry w.self UTEMP = none) :
  (mapPage msg child va fd filesz fileoffset perm i).EndsOr (fun _ => True) w (MapEnd w)
  := by
  have hchild : ∀ {w1 : World}, w1.key child = child := by
    intro w1
    rw [World.key, if_neg hzero]
  rw [mapPage, endsOr_ite]
  constructor
  · intro _
    rw [endsOr_bind]
    apply (sysPageAlloc_maps _ _ _ w).mono
    rintro r w1 (⟨herr, h1⟩ | ⟨hok, h1⟩)
    · rw [if_pos herr, endsOr_pure]
      refine ⟨h1.aside, ?_⟩
      left
      rw [h1.entry]
      exact ⟨rfl, htemp⟩
    · rw [hchild] at h1
      rw [if_neg (by rw [hok]; exact Bool.false_ne_true), endsOr_pure]
      refine ⟨h1.aside_setEntry (fun h => (hne h).elim), ?_⟩
      simp only
      rw [h1.entry, entry_setEntry_of_ne (fun h => (hne h.symm).elim), htemp]
  · intro _
    rw [endsOr_bind]
    apply (readPage_maps hrun fd filesz fileoffset i htemp).mono
    rintro r w3 ⟨h03, hfail⟩
    cases r with
    | some f => exact endsOr_pure _ |>.mpr (hfail f rfl)
    | none =>
        simp only
        rw [endsOr_bind]
        apply (sysPageMap_maps _ _ _ _ _ w3).mono
        rintro r4 w4 (⟨herr, h4⟩ | ⟨hok', m, h4⟩)
        · rw [if_pos herr]
          exact endsOr_panic _ |>.mpr trivial
        · rw [hchild] at h4
          have h04 : Aside w w4 := by
            apply Aside.composes.trans h03
            apply h4.aside_setEntry
            intro h
            exact (hne (h.trans h03.self)).elim
          have hkey4 : w4.key 0 = w.self := by rw [World.key, if_pos rfl, h04.self]
          rw [if_neg (by rw [hok']; exact Bool.false_ne_true), endsOr_bind]
          -- the page is unmapped: the caller is there, and may change itself
          obtain ⟨p, hp⟩ := Option.isSome_iff_exists.mp (h04.running hrun)
          have hfind : w4.find 0 = some p := by
            rw [World.find, hkey4, ← h04.self, hp]
          rw [endsOr_of_eq (sysPageUnmap_eq userPageAddr_UTEMP.1 hfind), endsOr_pure, hkey4]
          constructor
          · apply Aside.composes.trans h04
            apply Aside.setEntry
            exact fun _ => rfl
          · apply entry_setEntry _ rfl
            rw [h04.procs]
            exact hrun

/-- The pages of a segment are mapped one after the other, with nothing at `UTEMP` in between. -/
theorem mapPages_maps (msg : String) (va memsz fd filesz fileoffset perm : Word) (n : Nat) (i : Word)
    (htemp : w.entry w.self UTEMP = none) :
  (mapPages msg child va memsz fd filesz fileoffset perm n i).EndsOr (fun _ => True) w (MapEnd w)
  := by
  induction n generalizing w i with
  | zero => exact endsOr_leave.mpr trivial
  | succ n ih =>
      rw [mapPages, endsOr_ite]
      refine ⟨fun _ => ?_, fun _ => endsOr_pure _ |>.mpr ⟨Aside.composes.refl w, htemp⟩⟩
      rw [endsOr_bind]
      apply (mapPage_maps hrun hzero hne msg va fd filesz fileoffset perm i htemp).mono
      intro r w1 h1
      cases r with
      | some f => exact endsOr_pure _ |>.mpr h1
      | none =>
          obtain ⟨h1, htemp1⟩ := h1
          apply (ih (h1.running hrun) (by rw [h1.self]; exact hne) _ (by rw [h1.self]; exact htemp1)).mono
          exact fun r w2 h2 => h2.after h1

/-- So are the segments. -/
theorem mapSegments_maps {peek : Reader} (hpeek : ∀ a size k, Keeps SameProcs (peek a size k))
    (fd : Word) (n : Nat) (ph : Word) (htemp : w.entry w.self UTEMP = none) :
  (mapSegments peek child fd n ph).EndsOr (fun _ => True) w (MapEnd w)
  := by
  have hfield : ∀ k, Keeps SameProcs (peek.ph32 ph k) :=
    fun k => field32_keeps SameProcs.composes hpeek ph 32 k
  induction n generalizing w ph with
  | zero => exact endsOr_pure _ |>.mpr ⟨Aside.composes.refl w, htemp⟩
  | succ n ih =>
      have hnext : ∀ {w1}, Aside w w1 → w1.entry w.self UTEMP = none →
          (mapSegments peek child fd n (off ph 32)).EndsOr (fun _ => True) w1 (MapEnd w) := by
        intro w1 h1 htemp1
        apply (ih (h1.running hrun) (by rw [h1.self]; exact hne) _ (by rw [h1.self]; exact htemp1)
          (fun k => field32_keeps SameProcs.composes hpeek _ 32 k)).mono
        exact fun r w2 h2 => h2.after h1
      rw [mapSegments, endsOr_bind]
      apply ((hfield 0).endsOr w).mono
      intro type w1 h1
      rw [endsOr_ite]
      constructor
      · intro _
        exact hnext h1.aside (by rw [h1.entry, htemp])
      · intro _
        rw [endsOr_bind]
        apply ((hfield 24).endsOr w1).mono
        intro flags w2 h2
        rw [endsOr_bind]
        apply ((hfield 8).endsOr w2).mono
        intro va w3 h3
        rw [endsOr_bind]
        apply ((hfield 20).endsOr w3).mono
        intro memsz w4 h4
        rw [endsOr_bind]
        apply ((hfield 16).endsOr w4).mono
        intro filesz w5 h5
        rw [endsOr_bind]
        apply ((hfield 4).endsOr w5).mono
        intro offset w6 h6
        have h06 : SameProcs w w6 := SameProcs.composes.trans h1 (SameProcs.composes.trans h2
          (SameProcs.composes.trans h3 (SameProcs.composes.trans h4
            (SameProcs.composes.trans h5 h6))))
        rw [endsOr_bind, mapSegment]
        apply (mapPages_maps (h06.aside.running hrun) hzero (by rw [h06.self]; exact hne) _ _ _ _ _ _ _
          _ _ (by rw [h06.self, h06.entry, htemp])).mono
        intro r w7 h7
        have h07 := h7.after h06.aside
        cases r with
        | some f => exact endsOr_pure _ |>.mpr h07
        | none => exact hnext h07.1 h07.2

end Child

/-! ### The exits of spawn -/

/-- An environment is created that was not there, or nothing changes. -/
theorem sysExofork_maps {B : Stop World → Prop} (w : World) :
  sysExofork.EndsOr B w (fun r w' =>
    (isError r = true ∧ SameProcs w w') ∨
    (isError r = false ∧ r ≠ 0 ∧ w.procs r = none ∧ w'.self = w.self ∧ w.next ≤ w'.next
      ∧ ∃ p : Proc, w'.procs = Function.update w.procs r (some p)))
  := by
  rw [sysExofork, endsOr_bind, request, endsOr_bind, endsOr_get, endsOr_bind, endsOr_set, endsOr_pure,
    endsOr_bind, endsOr_get, endsOr_ite]
  constructor
  · intro herr
    exact endsOr_pure _ |>.mpr (Or.inl ⟨herr, rfl, rfl, Nat.le_refl _⟩)
  · intro hok
    rw [endsOr_ite]
    constructor
    · intro _
      exact endsOr_pure _ |>.mpr (Or.inl ⟨rfl, rfl, rfl, Nat.le_refl _⟩)
    · intro hnew
      obtain ⟨hzero, hnone⟩ := not_or.mp hnew
      simp only
      rw [endsOr_bind, endsOr_set, endsOr_pure]
      rw [Bool.not_eq_true] at hok hnone
      exact Or.inr ⟨hok, hzero, Option.isSome_eq_false_iff.mp hnone |> Option.isNone_iff_eq_none.mp, rfl,
        Nat.le_refl _, _, rfl⟩

theorem memory_same (a : Word) (size k : Nat) :
  Keeps SameProcs (memory a size k)
  := load_same _

theorem readHeader_same (fd buf : Word) (w : World) :
  (readHeader memory fd buf).EndsOr (fun _ => True) w (fun _ w' => SameProcs w w')
  := by
  rw [readHeader, endsOr_bind]
  apply (readn_same _ _ _ w).mono
  intro n w1 h1
  rw [endsOr_ite]
  refine ⟨fun _ => endsOr_pure _ |>.mpr h1, fun _ => ?_⟩
  rw [endsOr_bind]
  apply ((field32_keeps SameProcs.composes memory_same _ _ _).endsOr w1).mono
  intro magic w2 h2
  exact endsOr_pure _ |>.mpr (SameProcs.composes.trans h1 h2)

/-- The caller is as before: it maps below `UTOP` what it mapped, and no environment has been added. -/
def Clean (w w' : World) : Prop :=
  (∀ va, va.toNat < UTOP → w'.entry w.self va = w.entry w.self va)
    ∧ ∀ e, (w'.procs e).isSome → (w.procs e).isSome

/-- The exits that close the file and destroy the child. -/
def Releases (w : World) (place : Place) : Prop :=
  place = .open ∨ place = .header ∨ (place = .sysPageAlloc ∧ w.entry w.self UTEMP = none)

/-- What a `spawn` that was called in `w` does, so far as it returns. -/
def SpawnEnd (w : World) (r : Except Failure Word) (w' : World) : Prop :=
  match r with
  | .ok child => isError child = false
  | .error f => Clean w w' ↔ Releases w f.place

/-- The value that `spawn` returns. -/
def returned : Except Failure Word → Word
  | .ok child => child
  | .error f => f.code

section Exits

variable {i : Nat} (hi : i < MAXFD) (hnone : w.entry w.self (fdAddr i) = none)
include hi hnone

/-- Where the descriptor is still open, not all is clean. -/
theorem not_clean_of_open (hopen : (w'.entry w.self (fdAddr i)).isSome) :
  ¬ Clean w w'
  := by
  intro hclean
  rw [hclean.1 _ (userPageAddr_fdAddr hi).1, hnone] at hopen
  cases hopen

omit hi in
/-- An exit that closes the descriptor and leaves no child is clean if what is mapped at `UTEMP` is
what was mapped there. -/
theorem clean_iff (hprocs : ∀ e, (w'.procs e).isSome → (w.procs e).isSome)
    (hclosed : ∀ va, PGNUM va = PGNUM (fdAddr i) → w'.entry w.self va = none)
    (hsame : ∀ va, PGNUM va ≠ PGNUM (fdAddr i) → PGNUM va ≠ PGNUM UTEMP →
      w'.entry w.self va = w.entry w.self va) :
  Clean w w' ↔ w'.entry w.self UTEMP = w.entry w.self UTEMP
  := by
  constructor
  · intro hclean
    exact hclean.1 _ userPageAddr_UTEMP.1.1
  · intro htemp
    refine ⟨fun va _ => ?_, hprocs⟩
    have hcongr : ∀ {w1 : World} {va' : Word}, PGNUM va = PGNUM va' →
        w1.entry w.self va = w1.entry w.self va' := by
      intro w1 va' hnum
      rw [World.entry, World.entry, hnum]
    by_cases hfd : PGNUM va = PGNUM (fdAddr i)
    · rw [hclosed va hfd, hcongr hfd, hnone]
    · by_cases hut : PGNUM va = PGNUM UTEMP
      · rw [hcongr hut, htemp, hcongr hut]
      · exact hsame va hfd hut

end Exits

/-- A child is destroyed, and its creator goes on. -/
theorem sysEnvDestroy_eq {child : Word} (hchild : (w.procs child).isSome) (hzero : child ≠ 0)
    (hne : child ≠ w.self) :
  sysEnvDestroy child w = .ok (0, { w with procs := Function.update w.procs child none })
  := by
  obtain ⟨p, hp⟩ := Option.isSome_iff_exists.mp hchild
  have hkey : w.key child = child := by rw [World.key, if_neg hzero]
  rw [sysEnvDestroy, get_bind, World.find, hkey, hp]
  simp only
  rw [set_bind, if_neg hne]
  rfl

/-- How the rest of `spawn` ends once the child has been created: `w` is the world at the call, `w1`
the one in which the descriptor `i` was opened, and `w3` the one with the child. -/
theorem spawn_child_maps {w1 w3 : World} {i : Nat} {child : Word} {m : Mapped} {p : Proc}
    (hw : w.Wf) (hi : i < MAXFD) (hnone : w.entry w.self (fdAddr i) = none)
    (h1 : SameProcs (w.setEntry w.self (fdAddr i) (some m)) w1)
    (hok : isError child = false) (hzero : child ≠ 0) (hnew : w1.procs child = none)
    (hself : w3.self = w1.self) (hnext : w1.next ≤ w3.next)
    (hprocs : w3.procs = Function.update w1.procs child (some p)) (elfBuf argv : Word) :
  (spawnChild memory elfBuf argv (BitVec.ofNat 32 i) child).EndsOr (fun _ => True) w3 (SpawnEnd w)
  := by
  have hself3 : w3.self = w.self := hself.trans h1.self
  have hne : child ≠ w3.self := by
    rintro rfl
    have hrun := hw.running
    rw [hself3, h1.procs] at hnew
    rw [← @isSome_setEntry w w.self (fdAddr i) w.self (some m), hnew] at hrun
    cases hrun
  -- what the caller maps, and who is there, before the stack is set up
  have hentry3 : ∀ va, w3.entry w.self va = (w.setEntry w.self (fdAddr i) (some m)).entry w.self va := by
    intro va
    rw [← h1.entry, World.entry, World.entry, hprocs, Function.update_of_ne]
    rw [← hself3]
    exact hne.symm
  have hothers3 : ∀ e, e ≠ child → (w3.procs e).isSome = (w.procs e).isSome := by
    intro e he
    rw [hprocs, Function.update_of_ne he, h1.procs, isSome_setEntry]
  have hchild : (w.procs child).isSome = false := by
    rw [← @isSome_setEntry w w.self (fdAddr i) child (some m), ← h1.procs, hnew]
    rfl
  have hrun3 : (w3.procs w3.self).isSome := by
    rw [hothers3 _ hne.symm, hself3]
    exact hw.running
  have hfield : ∀ k, Keeps SameProcs (memory.elf32 elfBuf k) :=
    fun k => field32_keeps SameProcs.composes memory_same elfBuf 52 k
  have hopen : ∀ {w'}, Aside w3 w' → (w'.entry w.self (fdAddr i)).isSome := by
    intro w' h'
    have hentry := h'.entries _ (PGNUM_fdAddr_ne hi)
    rw [hself3] at hentry
    rw [hentry, hentry3, entry_setEntry hw.running rfl]
    rfl
  rw [spawnChild, endsOr_bind, endsOr_get, endsOr_bind]
  apply ((hfield 24).endsOr w3).mono
  intro entry w4 h4
  rw [endsOr_bind]
  apply (initStack_maps (h4.aside.running hrun3) hzero (by rw [h4.self]; exact hne) argv).mono
  rintro r w5 ⟨h5, htemp5⟩
  have h35 := Aside.composes.trans h4.aside h5
  cases r with
  | error r =>
      simp only
      rw [endsOr_pure]
      constructor
      · intro hclean
        exact (not_clean_of_open hi hnone (hopen h35) hclean).elim
      · rintro (h | h | ⟨h, -⟩)
        · cases h
        · cases h
        · cases h
  | ok initEsp =>
      simp only
      rw [endsOr_bind]
      apply ((hfield 28).endsOr w5).mono
      intro phoff w6 h6
      rw [endsOr_bind]
      apply ((field16_keeps SameProcs.composes memory_same _ _ _).endsOr w6).mono
      intro phnum w7 h7
      have h57 := SameProcs.composes.trans h6 h7
      have h37 := Aside.composes.trans h35 h57.aside
      rw [endsOr_bind]
      apply (mapSegments_maps (h37.running hrun3) hzero (by rw [h37.self]; exact hne) memory_same _ _ _
        (by rw [h37.self, h57.entry, ← h4.self]; exact htemp5 initEsp rfl)).mono
      intro r w8 h8
      obtain ⟨h38, hr⟩ := h8.after h37
      cases r with
      | none =>
          simp only
          rw [endsOr_bind]
          apply endsOr_true.mono
          intro _ w9 _
          rw [endsOr_bind]
          apply endsOr_true.mono
          intro r10 w10 _
          rw [endsOr_ite]
          refine ⟨fun _ => endsOr_panic _ |>.mpr trivial, fun _ => ?_⟩
          rw [endsOr_bind]
          apply endsOr_true.mono
          intro r11 w11 _
          rw [endsOr_ite]
          exact ⟨fun _ => endsOr_panic _ |>.mpr trivial, fun _ => endsOr_pure _ |>.mpr hok⟩
      | some f =>
          simp only
          have hself8 : w8.self = w.self := h38.self.trans hself3
          have hne8 : child ≠ w8.self := by
            rw [h38.self]
            exact hne
          have hchild8 : (w8.procs child).isSome := by
            rw [h38.procs, hprocs, Function.update_self]
            rfl
          rw [endsOr_bind, endsOr_of_eq (sysEnvDestroy_eq hchild8 hzero hne8)]
          obtain ⟨w9, hw9⟩ : ∃ w9, w9 = { w8 with procs := Function.update w8.procs child none } :=
            ⟨_, rfl⟩
          have hprocs9 : ∀ e, e ≠ child → w9.procs e = w8.procs e := by
            intro e he
            rw [hw9]
            exact Function.update_of_ne he _ _
          have hgone : w9.procs child = none := by
            rw [hw9]
            exact Function.update_self _ _ _
          have hself9 : w9.self = w.self := by
            rw [hw9]
            exact hself8
          have hne9 : w.self ≠ child := by
            rw [← hself3]
            exact hne.symm
          have hentry9 : ∀ va, w9.entry w.self va = w8.entry w.self va := by
            intro va
            rw [World.entry, World.entry, hprocs9 _ hne9]
          have hrun9 : (w9.procs w9.self).isSome := by
            rw [hself9, hprocs9 _ hne9, ← hself8]
            exact h38.running hrun3
          rw [← hw9, endsOr_bind]
          apply (close_maps hrun9 hi (by rw [hself9, hentry9]; exact hopen h38)).mono
          intro _ w10 h10
          rw [hself9] at h10
          rw [endsOr_pure]
          have hentry10 : ∀ va, PGNUM va ≠ PGNUM (fdAddr i) →
              w10.entry w.self va = w8.entry w.self va := by
            intro va hva
            rw [h10.entry, entry_setEntry_of_ne (fun _ => hva), hentry9]
          have htemp10 := hentry10 UTEMP (PGNUM_fdAddr_ne hi).symm
          have hiff : Clean w w10 ↔ w10.entry w.self UTEMP = w.entry w.self UTEMP := by
            apply clean_iff hnone
            · intro e he
              rw [h10.procs, isSome_setEntry] at he
              by_cases hchild' : e = child
              · rw [hchild', hgone] at he
                cases he
              · rw [← hothers3 e hchild', ← h38.procs, ← hprocs9 e hchild']
                exact he
            · intro va hva
              rw [h10.entry]
              apply entry_setEntry _ hva
              rw [← hself9]
              exact hrun9
            · intro va hva hut
              have hentry8 := h38.entries va hut
              rw [hself3] at hentry8
              rw [hentry10 va hva, hentry8, hentry3, entry_setEntry_of_ne (fun _ => hva)]
          change Clean w w10 ↔ _
          rw [hself3] at hr
          rw [hiff, htemp10]
          obtain ⟨hplace, hut⟩ | ⟨hplace, m', hut, hpage⟩ := hr
          · rw [hut, Releases, hplace]
            constructor
            · exact fun h => Or.inr (Or.inr ⟨rfl, h.symm⟩)
            · rintro (h | h | ⟨-, h⟩)
              · cases h
              · cases h
              · exact h.symm
          · rw [hut]
            constructor
            · -- the page is one that was not handed out at the call
              intro h
              have hfresh := hw.fresh _ _ _ h.symm
              have hnext1 : w.next ≤ w1.next := h1.next
              omega
            · rintro (h | h | ⟨h, -⟩)
              · rw [h] at hplace
                obtain hplace | hplace := hplace
                · cases hplace
                · cases hplace
              · rw [h] at hplace
                obtain hplace | hplace := hplace
                · cases hplace
                · cases hplace
              · rw [h] at hplace
                obtain hplace | hplace := hplace
                · cases hplace
                · cases hplace

/-- How a run of `spawn` ends. -/
theorem spawn_maps (hw : w.Wf) (elfBuf prog argv : Word) :
  (spawn memory elfBuf prog argv).EndsOr (fun _ => True) w (SpawnEnd w)
  := by
  have hclean : ∀ {w'}, SameProcs w w' → Clean w w' := by
    intro w' h'
    refine ⟨fun va _ => congrFun (congrFun h'.entry _) va, fun e he => ?_⟩
    rw [← h'.procs]
    exact he
  rw [spawn, endsOr_bind]
  apply (openFile_maps prog w).mono
  intro r w1 h1
  cases r with
  | error r =>
      simp only
      rw [endsOr_pure]
      exact ⟨fun _ => Or.inl rfl, fun _ => hclean h1⟩
  | ok fd =>
      obtain ⟨i, hi, rfl, hnone, m, h1⟩ := h1
      simp only
      rw [endsOr_bind]
      apply (readHeader_same _ _ w1).mono
      intro header w2 h2
      have h12 := SameProcs.composes.trans h1 h2
      have hopen2 : (w2.entry w.self (fdAddr i)).isSome := by
        rw [h12.entry, entry_setEntry hw.running rfl]
        rfl
      rw [endsOr_ite]
      constructor
      · intro _
        have hrun2 : (w2.procs w2.self).isSome := by
          rw [h12.procs, isSome_setEntry, h12.self]
          exact hw.running
        rw [endsOr_bind]
        apply (close_maps hrun2 hi (by rw [h12.self]; exact hopen2)).mono
        intro _ w3 h3
        rw [h12.self] at h3
        rw [endsOr_pure]
        have h03 := SameProcs.composes.trans (h12.setEntry w.self (fdAddr i) none) h3
        refine ⟨fun _ => Or.inr (Or.inl rfl), fun _ => ?_⟩
        constructor
        · intro va _
          rw [h03.entry]
          by_cases hva : PGNUM va = PGNUM (fdAddr i)
          · have hsame : w.entry w.self va = w.entry w.self (fdAddr i) := by
              rw [World.entry, World.entry, hva]
            rw [hsame, hnone]
            apply entry_setEntry _ hva
            rw [isSome_setEntry]
            exact hw.running
          · rw [entry_setEntry_of_ne (fun _ => hva)]
            exact entry_setEntry_of_ne (fun _ => hva) _
        · intro e he
          rw [h03.procs, isSome_setEntry] at he
          rw [isSome_setEntry] at he
          exact he
      · intro _
        rw [endsOr_bind]
        apply (sysExofork_maps w2).mono
        rintro child w3 (⟨herr, h3⟩ | ⟨hok, hzero, hnew, hself, hnext, p, hprocs⟩)
        · rw [if_pos herr, endsOr_pure]
          constructor
          · intro hclean'
            refine (not_clean_of_open hi hnone ?_ hclean').elim
            rw [h3.entry]
            exact hopen2
          · rintro (h | h | ⟨h, -⟩)
            · cases h
            · cases h
            · cases h
        · rw [if_neg (by rw [hok]; exact Bool.false_ne_true)]
          exact spawn_child_maps hw hi hnone h12 hok hzero hnew hself hnext hprocs elfBuf argv

end User

end Jos
