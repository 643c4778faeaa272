import Jos.Fs.Bc

/-!
# Runs on the block cache

A run of a program on the view of a cache is matched by a run on the cache, which writes back
what the program flushes.  Whatever a program does, blocks that are mapped and not dirty
agree with the disk afterwards.  A program that does not store changes nothing when it is run
again.
-/

namespace Jos.Fs

open Bytes Io

variable {α : Type}

/-! ### Runs on the view -/

/-- The disk after the flushes of a run. -/
def writeBacks (disk : Memory) (fs : List (Nat × Memory)) : Memory :=
  fs.foldl writeBack disk

/-- When all flushes are of one memory, the disk shows this memory in the blocks that were
flushed. -/
theorem writeBacks_of_mem {v : Memory} {fs : List (Nat × Memory)} {a : Nat} (disk : Memory)
    (hall : ∀ e ∈ fs, e.2 = v) (h : disk a = v a ∨ ∃ e ∈ fs, e.1 / BLKSIZE = a / BLKSIZE) :
  writeBacks disk fs a = v a
  := by
  induction fs generalizing disk with
  | nil =>
      rcases h with h | ⟨e, he, -⟩
      · exact h
      · exact absurd he List.not_mem_nil
  | cons e fs ih =>
      apply ih
      · exact fun e' he' => hall e' (List.mem_cons_of_mem _ he')
      · simp only [writeBack, copyBlock]
        by_cases ha : a / BLKSIZE = e.1 / BLKSIZE
        · rw [if_pos ha, hall e List.mem_cons_self]
          exact .inl rfl
        · rw [if_neg ha]
          rcases h with h | ⟨e', he', heq⟩
          · exact .inl h
          · rcases List.mem_cons.mp he' with rfl | he'
            · exact absurd heq.symm ha
            · exact .inr ⟨e', he', heq⟩

/-- `s'` is what a run leaves that changes the view to `m` and asks for the given flushes. -/
structure Ran (s s' : Cache) (m : Memory) (fs : List (Nat × Memory)) : Prop where
  coherent : Coherent s'
  view : s'.view = m
  disk : s'.disk = writeBacks s.disk fs
  log : ∀ d, d ∈ s'.log → d ∈ s.log ∨ ∃ n, d = writeBacks s.disk (fs.take n)

theorem Loaded.ran {s s' s'' : Cache} {m : Memory} {fs : List (Nat × Memory)} (h : Loaded s s')
    (h' : Ran s' s'' m fs) :
  Ran s s'' m fs
  where
  coherent := h'.coherent
  view := h'.view
  disk := h'.disk.trans (by rw [h.disk])
  log d hd := by
    have hlog := h'.log d hd
    rw [h.log, h.disk] at hlog
    exact hlog

theorem valid_lt {m : Memory} {a : Nat} (h : valid m a = true) :
  a < DISKSIZE
  := by
  simp only [valid, Bool.and_eq_true, decide_eq_true_eq] at h
  exact h.1.1

/-- How a run on the view ends is how a run on the cache ends, which leaves what it asks for. -/
def Matches (s : Cache) (fs : List (Nat × Memory)) : Outcome α → Except String α × Cache → Prop
  | .ret a m, r => r.1 = .ok a ∧ Ran s r.2 m fs
  | .panic msg, r => r.1 = .error msg
  | .fault _, _ => True

theorem Matches.mono {s s₁ : Cache} {fs fs₁ : List (Nat × Memory)} {out : Outcome α}
    {r : Except String α × Cache} (h : Matches s₁ fs₁ out r)
    (hran : ∀ {s' m}, Ran s₁ s' m fs₁ → Ran s s' m fs) :
  Matches s fs out r
  := by
  cases out with
  | ret a m => exact ⟨h.1, hran h.2⟩
  | panic msg => exact h
  | fault a => trivial

/-- A run on the view is matched by a run on the cache. -/
theorem exec_matches (p : Io α) {s : Cache} (hs : Coherent s) :
  Matches s (p.flushes valid s.view) (p.run valid s.view) (exec p s)
  := by
  induction p generalizing s with
  | done b => exact ⟨rfl, hs, rfl, rfl, fun d hd => .inl hd⟩
  | panic msg => rfl
  | load8 x k ih =>
      simp only [Io.run, Io.flushes]
      split
      case isTrue hx =>
        obtain ⟨s₁, heq, hl, hm⟩ := access_ok hs hx
        have h := ih (s.view x) (hl.coherent hs)
        rw [hl.view] at h
        rw [exec, heq]
        simp only
        rw [← view_of_mapped hm, hl.view]
        exact h.mono hl.ran
      case isFalse => trivial
  | load32 x k ih =>
      simp only [Io.run, Io.flushes]
      split
      case isTrue hx =>
        obtain ⟨s₁, heq, hl, hm, hm'⟩ := accessWord_ok hs hx
        have h := ih (read32 s.view x) (hl.coherent hs)
        rw [hl.view] at h
        rw [exec, heq]
        simp only
        rw [read32_view hm hm', hl.view]
        exact h.mono hl.ran
      case isFalse => trivial
  | store8 x b k ih =>
      simp only [Io.run, Io.flushes]
      split
      case isTrue hx =>
        obtain ⟨s₁, heq, hl, hm⟩ := access_ok hs hx
        obtain ⟨hview, hcoh⟩ := store8_view (hl.coherent hs) hm b
        rw [hl.view] at hview
        have h := ih hcoh
        rw [hview] at h
        rw [exec, heq]
        exact h.mono fun hran => hl.ran ⟨hran.coherent, hran.view, hran.disk, hran.log⟩
      case isFalse => trivial
  | store32 x w k ih =>
      simp only [Io.run, Io.flushes]
      split
      case isTrue hx =>
        obtain ⟨s₁, heq, hl, hm, hm'⟩ := accessWord_ok hs hx
        obtain ⟨hview, hcoh⟩ := store32_view (hl.coherent hs) hm hm' w
        rw [hl.view] at hview
        have h := ih hcoh
        rw [hview] at h
        rw [exec, heq]
        exact h.mono fun hran => hl.ran ⟨hran.coherent, hran.view, hran.disk, hran.log⟩
      case isFalse => trivial
  | flush x k ih =>
      simp only [Io.run, Io.flushes]
      split
      case isTrue hx =>
        obtain ⟨s₁, heq, hcoh, hview, hdisk, hlog⟩ := flushBlock_ok hs (valid_lt hx)
        have h := ih hcoh
        rw [hview] at h
        rw [exec, heq]
        refine h.mono fun hran => ⟨hran.coherent, hran.view, ?_, ?_⟩
        · rw [hran.disk, hdisk]
          rfl
        · intro d hd
          rcases hran.log d hd with hd | ⟨n, hd⟩
          · rcases hlog with hlog | hlog
            · rw [hlog] at hd
              exact .inl hd
            · rw [hlog, List.mem_cons] at hd
              rcases hd with hd | hd
              · exact .inr ⟨1, hd⟩
              · exact .inl hd
          · right
            use n + 1
            rw [hd, hdisk]
            rfl
      case isFalse => trivial

/-- A run that returns on the view returns the same on the cache. -/
theorem exec_of_run {p : Io α} {s : Cache} {a : α} {m : Memory} (hs : Coherent s)
    (h : p.run valid s.view = .ret a m) :
  ∃ s', exec p s = (.ok a, s') ∧ Ran s s' m (p.flushes valid s.view)
  := by
  have hmatch := exec_matches p hs
  rw [h] at hmatch
  exact ⟨_, Prod.ext hmatch.1 rfl, hmatch.2⟩

/-- A run that gives up on the view gives up on the cache. -/
theorem exec_of_panic {p : Io α} {s : Cache} {msg : String} (hs : Coherent s)
    (h : p.run valid s.view = .panic msg) :
  ∃ s', exec p s = (.error msg, s')
  := by
  have hmatch := exec_matches p hs
  rw [h] at hmatch
  exact ⟨_, Prod.ext hmatch rfl⟩

/-- How a program ends on the view is how it ends on the cache. -/
theorem exec_of_ends {p : Io α} {s : Cache} {Q : α → Memory → Prop} {E : Prop} (hs : Coherent s)
    (h : p.Ends valid s.view Q E) :
  (∃ a s', exec p s = (.ok a, s') ∧ Coherent s' ∧ Q a s'.view)
    ∨ ((∃ msg s', exec p s = (.error msg, s')) ∧ E)
  := by
  rcases h.cases with ⟨a, m, hrun, hQ⟩ | ⟨msg, hrun, hE⟩
  · obtain ⟨s', heq, hran⟩ := exec_of_run hs hrun
    left
    use a, s', heq, hran.coherent
    rw [hran.view]
    exact hQ
  · obtain ⟨s', heq⟩ := exec_of_panic hs hrun
    exact .inr ⟨⟨msg, s', heq⟩, hE⟩

/-- A program whose run on the view returns returns the same on the cache. -/
theorem exec_ok_of_ends {p : Io α} {s s' : Cache} {a : α} {Q : α → Memory → Prop} {E : Prop}
    (hs : Coherent s) (h : p.Ends valid s.view Q E) (hexec : exec p s = (.ok a, s')) :
  Coherent s' ∧ Q a s'.view
  := by
  rcases exec_of_ends hs h with ⟨b, s'', heq, hc, hQ⟩ | ⟨⟨msg, s'', heq⟩, -⟩
  · rw [hexec] at heq
    cases heq
    exact ⟨hc, hQ⟩
  · rw [hexec] at heq
    cases heq

/-! ### Runs from the start of the server -/

/-- An access that succeeds loads blocks. -/
theorem touch_loaded {n a : Nat} {s s' : Cache} (hs : Coherent s)
    (h : Cache.touch n a s = .ok s') :
  Loaded s s' ∧ s'.mapped (a / BLKSIZE) = true
  := by
  induction n generalizing a s s' with
  | zero => cases h
  | succ n ih =>
      rw [Cache.touch] at h
      split at h
      case isTrue hm =>
        cases h
        exact ⟨Loaded.refl _, hm⟩
      case isFalse hm =>
        rw [Bool.not_eq_true] at hm
        unfold Cache.bcPgfault at h
        split at h
        case isTrue => cases h
        case isFalse =>
          obtain ⟨s₁, heq₁, h⟩ := except_bind_eq_ok h
          have hsuper : ∀ s s', Coherent s → Cache.touch n s_nblocks s = .ok s' → s' = s := by
            intro s s' hs hs'
            cases n with
            | zero => cases hs'
            | succ n =>
                rw [touch_of_mapped (by exact hs.super)] at hs'
                cases hs'
                rfl
          rw [hsuper s s₁ hs heq₁] at h
          split at h
          case isTrue => cases h
          case isFalse =>
            have hl := loaded_load hm
            obtain ⟨⟨free, t⟩, hr, h⟩ := except_bind_eq_ok h
            have hrest : Loaded (s.load (a / BLKSIZE)) t := by
              unfold Cache.blockIsFree at hr
              obtain ⟨s₂, heq₂, hr⟩ := except_bind_eq_ok hr
              rw [hsuper _ s₂ (hl.coherent hs) heq₂] at hr
              split at hr
              case isTrue =>
                cases hr
                exact Loaded.refl _
              case isFalse =>
                obtain ⟨s₃, heq₃, hr⟩ := except_bind_eq_ok hr
                cases hr
                exact (ih (hl.coherent hs) heq₃).1
            dsimp only at h
            split at h
            case isTrue => cases h
            case isFalse =>
              cases h
              refine ⟨hl.trans hrest, hrest.mapped _ ?_⟩
              simp [Cache.load]

theorem accessWord_loaded {a : Nat} {s s' : Cache} (hs : Coherent s)
    (h : s.accessWord a = .ok s') :
  Loaded s s' ∧ s'.mapped (a / BLKSIZE) = true ∧ s'.mapped ((a + 3) / BLKSIZE) = true
  := by
  obtain ⟨s₁, heq₁, h⟩ := except_bind_eq_ok h
  obtain ⟨hl₁, hm₁⟩ := touch_loaded hs heq₁
  obtain ⟨hl₂, hm₂⟩ := touch_loaded (hl₁.coherent hs) h
  exact ⟨hl₁.trans hl₂, hl₂.mapped _ hm₁, hm₂⟩

/-- Whatever a program does, and also when it gives up, the cache can still be used. -/
theorem coherent_exec {s : Cache} (hs : Coherent s) (p : Io α) :
  Coherent (exec p s).2
  := by
  induction p generalizing s with
  | done a => exact hs
  | panic msg => exact hs
  | load8 x k ih =>
      rw [exec]
      split
      case h_1 s₁ heq => exact ih _ ((touch_loaded hs heq).1.coherent hs)
      case h_2 => exact hs
  | load32 x k ih =>
      rw [exec]
      split
      case h_1 s₁ heq => exact ih _ ((accessWord_loaded hs heq).1.coherent hs)
      case h_2 => exact hs
  | store8 x b k ih =>
      rw [exec]
      split
      case h_1 s₁ heq =>
        obtain ⟨hl, hm⟩ := touch_loaded hs heq
        exact ih (store8_view (hl.coherent hs) hm b).2
      case h_2 => exact hs
  | store32 x w k ih =>
      rw [exec]
      split
      case h_1 s₁ heq =>
        obtain ⟨hl, hm, hm'⟩ := accessWord_loaded hs heq
        exact ih (store32_view (hl.coherent hs) hm hm' w).2
      case h_2 => exact hs
  | flush x k ih =>
      rw [exec]
      split
      case h_1 s₁ heq =>
        apply ih
        rcases Nat.lt_or_ge x DISKSIZE with hx | hx
        · obtain ⟨s₂, heq₂, hc, -⟩ := flushBlock_ok hs hx
          rw [heq₂] at heq
          cases heq
          exact hc
        · unfold Cache.flushBlock at heq
          rw [if_pos hx] at heq
          cases heq
      case h_2 => exact hs

/-- The caches that the server reaches from a disk by loads, stores and flushes. -/
inductive Reached : Cache → Prop where
  | boot (disk : Memory) : Reached (Cache.booted disk)
  | step {s : Cache} {α : Type} (h : Reached s) (p : Io α) : Reached (exec p s).2

theorem Reached.coherent {s : Cache} (h : Reached s) :
  Coherent s
  := by
  induction h with
  | boot disk => exact coherent_booted disk
  | step h p ih => exact coherent_exec ih p

/-! ### Running a program that does not store again -/

/-- `t` is `s` after some blocks were loaded and flushed. -/
structure Later (s t : Cache) : Prop where
  mapped : ∀ b, s.mapped b = true → t.mapped b = true
  mem : ∀ a, s.mapped (a / BLKSIZE) = true → t.mem a = s.mem a
  dirty : ∀ b, t.mapped b = true → t.dirty b = true → s.mapped b = true ∧ s.dirty b = true

theorem Later.refl (s : Cache) :
  Later s s
  := ⟨fun _ => id, fun _ _ => rfl, fun _ => And.intro⟩

theorem Later.trans {s t u : Cache} (h : Later s t) (h' : Later t u) :
  Later s u
  where
  mapped b hb := h'.mapped b (h.mapped b hb)
  mem a ha := (h'.mem a (h.mapped _ ha)).trans (h.mem a ha)
  dirty b hb hd := by
    obtain ⟨hb, hd⟩ := h'.dirty b hb hd
    exact h.dirty b hb hd

theorem Loaded.later {s t : Cache} (h : Loaded s t) :
  Later s t
  where
  mapped := h.mapped
  mem a ha := by
    have hview := congrFun h.view a
    rw [view_of_mapped (h.mapped _ ha), view_of_mapped ha] at hview
    exact hview
  dirty := h.dirty

/-- A flush leaves the block clean. -/
theorem flushBlock_later {s t : Cache} {a : Nat} (h : s.flushBlock a = .ok t) :
  Later s t ∧ a < DISKSIZE
    ∧ ¬ (t.mapped (a / BLKSIZE) = true ∧ t.dirty (a / BLKSIZE) = true)
  := by
  unfold Cache.flushBlock at h
  split at h
  case isTrue => cases h
  case isFalse hlt =>
    split at h
    case isTrue hd =>
      cases h
      refine ⟨⟨fun _ => id, fun _ _ => rfl, ?_⟩, Nat.lt_of_not_le hlt, ?_⟩
      · intro b hb hd
        simp only [Cache.writeOut, Bool.and_eq_true] at hb hd
        exact ⟨hb, hd.2⟩
      · simp [Cache.writeOut]
    case isFalse hd =>
      cases h
      rw [Bool.and_eq_true] at hd
      exact ⟨Later.refl _, Nat.lt_of_not_le hlt, hd⟩

/-- A program that does not store changes nothing when it is run again. -/
theorem exec_again {p : Io α} {s s' : Cache} {a : α} (hp : p.Quiet) (hs : Coherent s)
    (h : exec p s = (.ok a, s')) :
  Later s s' ∧ ∀ t, Later s' t → exec p t = (.ok a, t)
  := by
  induction p generalizing s with
  | done b =>
      cases h
      exact ⟨Later.refl _, fun _ _ => rfl⟩
  | panic msg => cases h
  | load8 x k ih =>
      rw [exec] at h
      split at h
      case h_1 s₁ heq =>
        obtain ⟨hl, hm⟩ := touch_loaded hs heq
        obtain ⟨hlater, hagain⟩ := ih _ (hp _) (hl.coherent hs) h
        refine ⟨hl.later.trans hlater, ?_⟩
        intro t ht
        have hlt := hlater.trans ht
        rw [exec, Cache.access, touch_of_mapped (hlt.mapped _ hm)]
        simp only
        rw [hlt.mem x hm]
        exact hagain t ht
      case h_2 => cases h
  | load32 x k ih =>
      rw [exec] at h
      split at h
      case h_1 s₁ heq =>
        obtain ⟨hl, hm, hm'⟩ := accessWord_loaded hs heq
        obtain ⟨hlater, hagain⟩ := ih _ (hp _) (hl.coherent hs) h
        refine ⟨hl.later.trans hlater, ?_⟩
        intro t ht
        have hlt := hlater.trans ht
        have hread : read32 t.mem x = read32 s₁.mem x := by
          apply read32_congr
          intro y hy hy'
          apply hlt.mem
          rcases (show y / BLKSIZE = x / BLKSIZE ∨ y / BLKSIZE = (x + 3) / BLKSIZE by
            simp only [BLKSIZE]; omega) with hyx | hyx
          · rw [hyx]
            exact hm
          · rw [hyx]
            exact hm'
        rw [exec, Cache.accessWord, Cache.access, touch_of_mapped (hlt.mapped _ hm),
          except_ok_bind, Cache.access, touch_of_mapped (hlt.mapped _ hm')]
        simp only
        rw [hread]
        exact hagain t ht
      case h_2 => cases h
  | store8 x b k ih => exact hp.elim
  | store32 x w k ih => exact hp.elim
  | flush x k ih =>
      rw [exec] at h
      split at h
      case h_1 s₁ heq =>
        obtain ⟨hl, hlt, hclean⟩ := flushBlock_later heq
        have hcoh : Coherent s₁ := by
          obtain ⟨s₂, heq₂, hc, -⟩ := flushBlock_ok hs hlt
          rw [heq₂] at heq
          cases heq
          exact hc
        obtain ⟨hlater, hagain⟩ := ih hp hcoh h
        refine ⟨hl.trans hlater, ?_⟩
        intro t ht
        have hnot : ¬ (t.mapped (x / BLKSIZE) && t.dirty (x / BLKSIZE)) = true := by
          rw [Bool.and_eq_true]
          exact fun hd => hclean ((hlater.trans ht).dirty _ hd.1 hd.2)
        rw [exec, Cache.flushBlock, if_neg (by omega), if_neg hnot]
        exact hagain t ht
      case h_2 => cases h

end Jos.Fs
