import Jos.Fs.Service

/-!
# Open-file ids

Whatever clients ask for, whatever is on the disk and whichever requests fail, the ids that
`openfile_alloc` gives are all different, and `openfile_lookup` finds exactly those whose page some
client still maps, besides the indices of slots that were never used: to these it gives a slot
without a file.  This goes on as long as no slot is given so many ids that the next one would be
negative, and no page is mapped at so many places that the kernel can not count them.
-/

namespace Jos.Fs

open Bytes Io

variable {α : Type} {s s' : Cache} {t t' : Server} {ipc : Fsipc} {noMem taken : Bool} {req r : Word}
  {page : Memory} {pg : Option Nat}

/-! ### What a turn does to the slots -/

/-- The ids of the slots and the references to their pages are the same. -/
structure SameSlots (t t' : Server) : Prop where
  fileid : ∀ i, (t'.opentab i).o_fileid = (t.opentab i).o_fileid
  ppRef : t'.ppRef = t.ppRef

theorem SameSlots.refl (t : Server) :
  SameSlots t t
  := ⟨fun _ => rfl, rfl⟩

/-- A run that returns leaves the slots as they are. -/
def KeepsSlots (t : Server) (p : Io Handled) : Prop :=
  ∀ ⦃s s' r page t'⦄, exec p s = (.ok (r, page, t'), s') → SameSlots t t'

theorem keepsSlots_pure (h : SameSlots t t') :
  KeepsSlots t (pure (r, page, t'))
  := by
  intro s s' r' page' t'' hexec
  cases exec_pure_ok hexec
  exact h

theorem keepsSlots_bind {p : Io α} {f : α → Io Handled} (h : ∀ a, KeepsSlots t (f a)) :
  KeepsSlots t (p >>= f)
  := by
  intro s s' r page t' hexec
  obtain ⟨a, s₁, -, hexec⟩ := exec_bind_ok hexec
  exact h a hexec

theorem keepsSlots_withOpen {op : Memory → Nat → Nat → Io Handled}
    (h : ∀ req i f, KeepsSlots t (op req i f)) :
  KeepsSlots t (withOpen ipc t op)
  := by
  apply keepsSlots_bind
  intro req
  split
  case h_1 => exact keepsSlots_pure (.refl t)
  case h_2 i _ =>
    apply keepsSlots_bind
    intro f
    exact h req i f

/-- A request other than to open a file changes no slot. -/
theorem keepsSlots_handler {handler : Fsipc → Server → Io Handled}
    (hhandler : handlers req = some handler) :
  KeepsSlots t (handler ipc t)
  := by
  rw [handlers] at hhandler
  split_ifs at hhandler
  all_goals obtain rfl := Option.some.inj hhandler
  -- one case for each handler, in the order of the table
  case pos =>
    apply keepsSlots_withOpen
    intro _ _ _
    exact keepsSlots_bind (fun _ => keepsSlots_pure (.refl t))
  case pos =>
    apply keepsSlots_withOpen
    intro _ _ _
    apply keepsSlots_bind
    intro _
    apply keepsSlots_bind
    intro _
    split
    case isTrue => exact keepsSlots_pure ⟨fun _ => rfl, rfl⟩
    case isFalse => exact keepsSlots_pure (.refl t)
  case pos =>
    apply keepsSlots_withOpen
    intro _ _ _
    exact keepsSlots_bind (fun _ => keepsSlots_pure ⟨fun _ => rfl, rfl⟩)
  case pos =>
    apply keepsSlots_withOpen
    intro _ _ _
    apply keepsSlots_bind
    intro _
    apply keepsSlots_bind
    intro _
    apply keepsSlots_bind
    intro _
    exact keepsSlots_bind (fun _ => keepsSlots_pure (.refl t))
  case pos =>
    apply keepsSlots_withOpen
    intro _ _ _
    exact keepsSlots_bind (fun _ => keepsSlots_pure (.refl t))
  case pos =>
    apply keepsSlots_bind
    intro _
    exact keepsSlots_bind (fun _ => keepsSlots_pure (.refl t))
  case pos => exact keepsSlots_bind (fun _ => keepsSlots_pure (.refl t))

/-- A request to open a file takes the slot that `openfile_alloc` gives, and fills it in if it
succeeds. -/
theorem serveOpen_takes {i : Nat} (halloc : openfileAlloc noMem t = (.ok i, t.take i))
    (h : exec (serveOpen noMem ipc t) s = (.ok (r, pg, t'), s')) :
  (pg = none ∧ t' = t.take i)
    ∨ (pg = some i ∧ ∃ f omode, t' = (t.take i).opened i f omode)
  := by
  obtain ⟨req, s₁, -, h⟩ := exec_bind_ok h
  rw [halloc] at h
  dsimp only at h
  split at h
  case isTrue =>
    cases exec_pure_ok h
    exact .inl ⟨rfl, rfl⟩
  case isFalse =>
    obtain ⟨x, s₂, -, h⟩ := exec_bind_ok h
    split at h
    case h_1 =>
      cases exec_pure_ok h
      exact .inl ⟨rfl, rfl⟩
    case h_2 f =>
      cases exec_pure_ok h
      exact .inr ⟨rfl, f, _, rfl⟩

theorem serveOpen_refused {c : Word} (halloc : openfileAlloc noMem t = (.error c, t))
    (h : exec (serveOpen noMem ipc t) s = (.ok (r, pg, t'), s')) :
  pg = none ∧ t' = t
  := by
  obtain ⟨req, s₁, -, h⟩ := exec_bind_ok h
  rw [halloc] at h
  cases exec_pure_ok h
  exact ⟨rfl, rfl⟩

/-! ### The ids and where their pages are mapped -/

/-- The ids that were given, the latest first, and at how many places clients map the page that they
were sent with an id. -/
structure Ledger where
  given : List Word
  holders : Word → Nat

def Ledger.start : Ledger := ⟨[], fun _ => 0⟩

/-- The number of ids that were given for a slot. -/
def Ledger.count (g : Ledger) (i : Nat) : Nat :=
  g.given.countP (fun id => slotOf id = i)

/-- The id that a turn gives. -/
def newId (req : Word) (ipc : Fsipc) (noMem : Bool) (t : Server) : Option Word :=
  if ipc.perm &&& PTE_P ≠ 0 ∧ req = FSREQ_OPEN then
    match openfileAlloc noMem t with
    | (.ok i, t) => some (t.opentab i).o_fileid
    | (.error _, _) => none
  else
    none

/-- An id is given, and the client that is sent the page may take it. -/
def Ledger.give (g : Ledger) (id : Option Word) (sent : Bool) : Ledger :=
  match id with
  | none => g
  | some id => ⟨id :: g.given, if sent then Function.update g.holders id (g.holders id + 1) else g.holders⟩

/-- What happens to the server and its clients, without any condition on the requests: the turns
that return, and changes of the places where clients map a page they were sent. -/
inductive Server.Turn : Act × Option Answer → Cache × Server × Ledger → Cache × Server × Ledger →
    Prop where
  | serve {req : Word} {ipc : Fsipc} {noMem taken : Bool} {a : Option Answer} {s s' : Cache}
      {t t' : Server} {g : Ledger} (hexec : exec (Fs.serve req ipc noMem t) s = (.ok (a, t'), s')) :
      Server.Turn (.serve req ipc noMem taken, a) (s, t, g)
        (s', t'.sent (a.bind Answer.pg) taken,
          g.give (newId req ipc noMem t) ((a.bind Answer.pg).isSome && taken))
  | map {id : Word} {s : Cache} {t : Server} {g : Ledger} (hid : 0 < g.holders id) :
      Server.Turn (.map id, none) (s, t, g)
        (s, { t with ppRef := Function.update t.ppRef (slotOf id) (t.ppRef (slotOf id) + 1) },
          ⟨g.given, Function.update g.holders id (g.holders id + 1)⟩)
  | unmap {id : Word} {s : Cache} {t : Server} {g : Ledger} (hid : 0 < g.holders id) :
      Server.Turn (.unmap id, none) (s, t, g)
        (s, { t with ppRef := Function.update t.ppRef (slotOf id) (t.ppRef (slotOf id) - 1) },
          ⟨g.given, Function.update g.holders id (g.holders id - 1)⟩)
  | poke {id : Word} {fd : FdPage} {s : Cache} {t : Server} {g : Ledger} (hid : 0 < g.holders id) :
      Server.Turn (.poke id fd, none) (s, t, g)
        (s, { t with fd := Function.update t.fd (slotOf id) fd }, g)

/-- The ids of each slot count up, its page is there once an id was given, and the places where
clients map the page belong to the latest id. -/
structure Tallied (t : Server) (g : Ledger) : Prop where
  fileid : ∀ i < MAXOPEN, (t.opentab i).o_fileid.toNat = i + MAXOPEN * g.count i
  unused : ∀ i < MAXOPEN, g.count i = 0 → t.pageref i = 0
  mapped : ∀ i < MAXOPEN, g.count i ≠ 0 → t.pageref i = 1 + g.holders (t.opentab i).o_fileid
  latest : ∀ id, g.holders id ≠ 0 → (t.opentab (slotOf id)).o_fileid = id ∧ g.count (slotOf id) ≠ 0
  bound : ∀ id ∈ g.given, id.toNat ≤ (t.opentab (slotOf id)).o_fileid.toNat
  known : ∀ i < MAXOPEN, g.count i ≠ 0 → (t.opentab i).o_fileid ∈ g.given
  nodup : g.given.Nodup

/-- No slot has been given so many ids that they run out. -/
def Ledger.Few (g : Ledger) : Prop :=
  ∀ i < MAXOPEN, g.count i < 2 ^ 21

/-- No page is mapped at so many places that its references can not be counted. -/
def Ledger.Fits (g : Ledger) : Prop :=
  ∀ id, g.holders id + 1 < 2 ^ 16

variable {g : Ledger} {id : Word} {i : Nat}

theorem tallied_start :
  Tallied serveInit Ledger.start
  := by
  constructor
  case fileid =>
    intro i hi
    change (BitVec.ofNat 32 i).toNat = i + MAXOPEN * 0
    rw [BitVec.toNat_ofNat]
    simp only [MAXOPEN] at hi ⊢
    omega
  case unused => exact fun _ _ _ => rfl
  case mapped => exact fun _ _ hne => absurd rfl hne
  case latest => exact fun _ hne => absurd rfl hne
  case bound => exact fun _ hin => absurd hin (List.not_mem_nil)
  case known => exact fun _ _ hne => absurd rfl hne
  case nodup => exact List.nodup_nil

/-- The ids and where their pages are mapped are all that matters. -/
theorem Tallied.congr (h : Tallied t g) (hsame : SameSlots t t') :
  Tallied t' g
  := by
  obtain ⟨hfileid, hppRef⟩ := hsame
  have hpageref : t'.pageref = t.pageref := by
    funext i
    rw [Server.pageref, Server.pageref, hppRef]
  constructor
  case fileid => simpa only [hfileid] using h.fileid
  case unused => simpa only [hpageref] using h.unused
  case mapped => simpa only [hfileid, hpageref] using h.mapped
  case latest => simpa only [hfileid] using h.latest
  case bound => simpa only [hfileid] using h.bound
  case known => simpa only [hfileid] using h.known
  case nodup => exact h.nodup

theorem Tallied.slotOf_fileid (h : Tallied t g) (hi : i < MAXOPEN) :
  slotOf (t.opentab i).o_fileid = i
  := by
  rw [slotOf, h.fileid i hi, Nat.add_mul_mod_self_left, Nat.mod_eq_of_lt hi]

/-- Clients map a page at more or fewer places. -/
theorem Tallied.remap (h : Tallied t g) (id : Word)
    (hlatest : (t.opentab (slotOf id)).o_fileid = id) (hcount : g.count (slotOf id) ≠ 0)
    {n : BitVec 16} {k : Nat} (hn : n.toNat = 1 + k) :
  Tallied { t with ppRef := Function.update t.ppRef (slotOf id) n }
    ⟨g.given, Function.update g.holders id k⟩
  := by
  constructor
  case fileid => exact h.fileid
  case bound => exact h.bound
  case known => exact h.known
  case nodup => exact h.nodup
  case unused =>
    intro i hi hzero
    have hne : i ≠ slotOf id := by
      rintro rfl
      exact hcount hzero
    dsimp only [Server.pageref]
    rw [Function.update_of_ne hne]
    exact h.unused i hi hzero
  case mapped =>
    intro i hi hne
    dsimp only [Server.pageref]
    by_cases heq : i = slotOf id
    · subst heq
      rw [Function.update_self, hlatest, Function.update_self]
      exact hn
    · have hother : (t.opentab i).o_fileid ≠ id := by
        intro hin
        apply heq
        rw [← hin, h.slotOf_fileid hi]
      rw [Function.update_of_ne heq, Function.update_of_ne hother]
      exact h.mapped i hi hne
  case latest =>
    intro id' hne
    dsimp only at hne ⊢
    by_cases heq : id' = id
    · rw [heq]
      exact ⟨hlatest, hcount⟩
    · rw [Function.update_of_ne heq] at hne
      exact h.latest id' hne

theorem count_give {holders : Word → Nat} {j : Nat} :
  Ledger.count ⟨id :: g.given, holders⟩ j = if slotOf id = j then g.count j + 1 else g.count j
  := by
  rw [Ledger.count, List.countP_cons, ← Ledger.count]
  by_cases heq : slotOf id = j
  · rw [if_pos heq, if_pos (decide_eq_true heq)]
  · rw [if_neg heq, if_neg (fun h => heq (of_decide_eq_true h))]
    rfl

/-- No client maps the page of a slot without other references, under whichever id. -/
theorem Tallied.idle (h : Tallied t g) (hi : i < MAXOPEN) (hidle : t.pageref i ≤ 1)
    (hslot : slotOf id = i) :
  g.holders id = 0
  := by
  by_contra hne
  obtain ⟨hlatest, hcount⟩ := h.latest id hne
  rw [hslot] at hlatest hcount
  have hmapped := h.mapped i hi hcount
  rw [hlatest] at hmapped
  omega

/-- A slot that no client shares is given the next id. -/
theorem Tallied.take (h : Tallied t g) (hi : i < MAXOPEN) (hidle : t.pageref i ≤ 1)
    (hfew : g.count i + 1 < 2 ^ 21) :
  Tallied (t.take i) ⟨((t.take i).opentab i).o_fileid :: g.given, g.holders⟩
    ∧ g.holders ((t.take i).opentab i).o_fileid = 0
  := by
  have hfileid := h.fileid i hi
  have hold := h.slotOf_fileid hi
  have hlast : (t.opentab i).o_fileid.toNat + MAXOPEN < 2 ^ 32 := by
    rw [hfileid]
    simp only [MAXOPEN] at hi ⊢
    omega
  have hnew := t.take_fileid_self i
  obtain ⟨hnat, hslot⟩ := slotOf_add hlast
  rw [hold] at hslot
  rw [hnew]
  generalize (t.opentab i).o_fileid + BitVec.ofNat 32 MAXOPEN = fid at *
  have hnone : ∀ id, slotOf id = i → g.holders id = 0 := fun id hid => h.idle hi hidle hid
  have hother : ∀ j, j ≠ i → ((t.take i).opentab j).o_fileid = (t.opentab j).o_fileid := by
    intro j hne
    rw [Server.take_opentab hne]
  have hcount : ∀ j, Ledger.count ⟨fid :: g.given, g.holders⟩ j
      = if i = j then g.count j + 1 else g.count j := by
    intro j
    rw [count_give, hslot]
  refine ⟨?_, hnone fid hslot⟩
  constructor
  case fileid =>
    intro j hj
    rw [hcount]
    by_cases heq : j = i
    · subst heq
      rw [if_pos rfl, hnew, hnat, hfileid, Nat.mul_add, Nat.mul_one, Nat.add_assoc]
    · rw [if_neg (Ne.symm heq), hother j heq]
      exact h.fileid j hj
  case unused =>
    intro j hj hzero
    rw [hcount] at hzero
    by_cases heq : j = i
    · rw [if_pos heq.symm] at hzero
      omega
    · rw [if_neg (Ne.symm heq)] at hzero
      rw [Server.take_pageref heq]
      exact h.unused j hj hzero
  case mapped =>
    intro j hj hne
    rw [hcount] at hne
    by_cases heq : j = i
    · subst heq
      rw [hnew, hnone fid hslot, Server.take_pageref_self]
    · rw [if_neg (Ne.symm heq)] at hne
      rw [hother j heq, Server.take_pageref heq]
      exact h.mapped j hj hne
  case latest =>
    intro id hne
    have heq : slotOf id ≠ i := fun hid => hne (hnone id hid)
    rw [hcount, if_neg (Ne.symm heq), hother _ heq]
    exact h.latest id hne
  case bound =>
    intro id hin
    rcases List.mem_cons.mp hin with rfl | hin
    · rw [hslot, hnew]
    · have hle := h.bound id hin
      by_cases heq : slotOf id = i
      · rw [heq] at hle ⊢
        rw [hnew, hnat]
        omega
      · rw [hother _ heq]
        exact hle
  case known =>
    intro j hj hne
    rw [hcount] at hne
    by_cases heq : j = i
    · rw [heq, hnew]
      exact List.mem_cons_self
    · rw [if_neg (Ne.symm heq)] at hne
      rw [hother j heq]
      exact List.mem_cons_of_mem _ (h.known j hj hne)
  case nodup =>
    refine List.nodup_cons.mpr ⟨?_, h.nodup⟩
    intro hin
    have hle := h.bound fid hin
    rw [hslot, hnat] at hle
    simp only [MAXOPEN] at hle
    omega

/-- The page of a slot with a new id is sent. -/
theorem Tallied.sent (h : Tallied t ⟨id :: g.given, g.holders⟩) (hid : (t.opentab i).o_fileid = id)
    (hslot : slotOf id = i) (hone : t.pageref i = 1) (hzero : g.holders id = 0) (taken : Bool) :
  Tallied (t.sent (some i) taken) (g.give (some id) taken)
  := by
  cases taken with
  | false => exact h
  | true =>
      have hcount : Ledger.count ⟨id :: g.given, g.holders⟩ (slotOf id) ≠ 0 := by
        rw [count_give, if_pos rfl]
        exact Nat.succ_ne_zero _
      have hremap := h.remap id (by rw [hslot, hid]) hcount (n := 2) (k := 0 + 1) rfl
      have htwo : t.ppRef i + 1 = 2 := by
        rw [Server.pageref] at hone
        bv_omega
      rw [hslot] at hremap
      rw [Server.sent, Ledger.give, if_pos rfl, if_pos rfl, htwo, hzero]
      exact hremap

/-! ### Runs -/

theorem newId_taken (hperm : ipc.perm &&& PTE_P ≠ 0)
    (halloc : openfileAlloc noMem t = (.ok i, t.take i)) :
  newId FSREQ_OPEN ipc noMem t = some ((t.take i).opentab i).o_fileid
  := by
  rw [newId, if_pos ⟨hperm, rfl⟩, halloc]

theorem newId_refused {c : Word} (halloc : openfileAlloc noMem t = (.error c, t)) :
  newId req ipc noMem t = none
  := by
  rw [newId, halloc, ite_self]

/-- A request to open keeps the tally, whether it succeeds or not. -/
theorem Tallied.opens (h : Tallied t g) (hperm : ipc.perm &&& PTE_P ≠ 0)
    (hexec : exec (serveOpen noMem ipc t) s = (.ok (r, pg, t'), s'))
    (hfew : (g.give (newId FSREQ_OPEN ipc noMem t) (pg.isSome && taken)).Few) :
  Tallied (t'.sent pg taken) (g.give (newId FSREQ_OPEN ipc noMem t) (pg.isSome && taken))
  := by
  rcases openfileAlloc_cases noMem t with ⟨heq, -⟩ | ⟨heq, -⟩ | ⟨i, hi, hidle, heq⟩
  · obtain ⟨rfl, rfl⟩ := serveOpen_refused heq hexec
    rw [newId_refused heq]
    exact h
  · obtain ⟨rfl, rfl⟩ := serveOpen_refused heq hexec
    rw [newId_refused heq]
    exact h
  · rw [newId_taken hperm heq] at hfew ⊢
    have hslot : slotOf ((t.take i).opentab i).o_fileid = i := by
      rw [Server.take_fileid_self, slotOf_add_MAXOPEN, h.slotOf_fileid hi]
    have hcount : g.count i + 1 < 2 ^ 21 := by
      have hlt := hfew i hi
      rw [Ledger.give, count_give, if_pos hslot] at hlt
      exact hlt
    obtain ⟨htake, hzero⟩ := h.take hi hidle hcount
    rcases serveOpen_takes heq hexec with ⟨rfl, rfl⟩ | ⟨rfl, f, omode, rfl⟩
    · exact htake
    · have hsame : SameSlots (t.take i) ((t.take i).opened i f omode) :=
        ⟨Server.opened_fileid _ _ _ _, rfl⟩
      have hone : ((t.take i).opened i f omode).pageref i = 1 := by
        rw [Server.opened_pageref, Server.take_pageref_self]
      exact (htake.congr hsame).sent (hsame.fileid i) hslot hone hzero taken

/-- A turn of the server keeps the tally. -/
theorem Tallied.serve {a : Option Answer} (h : Tallied t g)
    (hexec : exec (Fs.serve req ipc noMem t) s = (.ok (a, t'), s'))
    (hfew : (g.give (newId req ipc noMem t) ((a.bind Answer.pg).isSome && taken)).Few) :
  Tallied (t'.sent (a.bind Answer.pg) taken)
    (g.give (newId req ipc noMem t) ((a.bind Answer.pg).isSome && taken))
  := by
  rw [Fs.serve] at hexec
  split_ifs at hexec with hperm hreq
  case pos =>
    cases exec_pure_ok hexec
    rw [newId, if_neg (fun hcond => hcond.1 hperm)]
    exact h
  case pos =>
    subst hreq
    obtain ⟨⟨r, pg, t₁⟩, s₁, hopen, hexec⟩ := exec_bind_ok hexec
    cases exec_pure_ok hexec
    exact h.opens hperm hopen hfew
  case neg =>
    rw [newId, if_neg (fun hcond => hreq hcond.2)]
    split at hexec
    case h_1 handler hhandler =>
      obtain ⟨⟨r, page, t₁⟩, s₁, hrun, hexec⟩ := exec_bind_ok hexec
      cases exec_pure_ok hexec
      exact h.congr (keepsSlots_handler hhandler hrun)
    case h_2 =>
      cases exec_pure_ok hexec
      exact h

theorem Ledger.few_give {new : Option Word} {sent : Bool} (hfew : (g.give new sent).Few) :
  g.Few
  := by
  cases new with
  | none => exact hfew
  | some id =>
      intro i hi
      have hlt := hfew i hi
      rw [Ledger.give, count_give] at hlt
      split at hlt
      · omega
      · exact hlt

/-- Whatever happens keeps the tally. -/
theorem Server.Turn.tallied {x : Act × Option Answer} {y y' : Cache × Server × Ledger}
    (h : y.2.2.Few → Tallied y.2.1 y.2.2) (hturn : Server.Turn x y y') (hfits : y'.2.2.Fits) :
  y'.2.2.Few → Tallied y'.2.1 y'.2.2
  := by
  intro hfew
  cases hturn with
  | serve hexec => exact (h (Ledger.few_give hfew)).serve hexec hfew
  | @map id s t g hid =>
      have h : Tallied t g := h hfew
      obtain ⟨hlatest, hcount⟩ := h.latest id (Nat.ne_of_gt hid)
      have hmapped := h.mapped (slotOf id) (slotOf_lt id) hcount
      have hroom := hfits id
      dsimp only at hroom
      rw [Function.update_self] at hroom
      rw [hlatest, Server.pageref] at hmapped
      exact h.remap id hlatest hcount (by bv_omega)
  | @unmap id s t g hid =>
      have h : Tallied t g := h hfew
      obtain ⟨hlatest, hcount⟩ := h.latest id (Nat.ne_of_gt hid)
      have hmapped := h.mapped (slotOf id) (slotOf_lt id) hcount
      rw [hlatest, Server.pageref] at hmapped
      exact h.remap id hlatest hcount (by bv_omega)
  | poke hid => exact (h hfew).congr ⟨fun _ => rfl, rfl⟩

/-! ### What the ids are good for -/

/-- Each id that was given is positive as a number with a sign. -/
theorem Tallied.small (h : Tallied t g) (hfew : g.Few) (hin : id ∈ g.given) :
  id.toNat < 2 ^ 31
  := by
  have hi := slotOf_lt id
  have hle := h.bound id hin
  have hlt := hfew (slotOf id) hi
  rw [h.fileid _ hi] at hle
  simp only [MAXOPEN] at hi hle
  omega

/-- An id is found when a client maps its page, or when it is the index of a slot that no id was
given for. -/
theorem Tallied.lookup (h : Tallied t g) (id : Word) :
  openfileLookup id t
    = if 0 < g.holders id ∨ (g.count (slotOf id) = 0 ∧ id.toNat < MAXOPEN) then .ok (slotOf id)
      else .error (-E_INVAL)
  := by
  have hi := slotOf_lt id
  have hfileid := h.fileid (slotOf id) hi
  by_cases hzero : g.count (slotOf id) = 0
  · have hnone : g.holders id = 0 := by
      by_contra hne
      exact (h.latest id hne).2 hzero
    have hslot : (t.opentab (slotOf id)).o_fileid = id ↔ id.toNat < MAXOPEN := by
      rw [← BitVec.toNat_inj, hfileid, hzero, slotOf]
      simp only [MAXOPEN]
      omega
    rw [openfileLookup, h.unused _ hi hzero, hnone]
    by_cases hlt : id.toNat < MAXOPEN
    · rw [if_neg, if_pos (.inr ⟨hzero, hlt⟩)]
      rintro (hone | hne)
      · exact Nat.zero_ne_one hone
      · exact hne (hslot.mpr hlt)
    · rw [if_pos (.inr (fun heq => hlt (hslot.mp heq))), if_neg]
      rintro (hpos | hcond)
      · exact Nat.lt_irrefl 0 hpos
      · exact hlt hcond.2
  · rw [openfileLookup, h.mapped _ hi hzero]
    by_cases hpos : 0 < g.holders id
    · obtain ⟨hlatest, -⟩ := h.latest id (Nat.ne_of_gt hpos)
      rw [if_neg, if_pos (.inl hpos)]
      rintro (hone | hne)
      · rw [hlatest] at hone
        omega
      · exact hne hlatest
    · rw [if_pos, if_neg]
      · rintro (hcond | hcond)
        · exact hpos hcond
        · exact hzero hcond.1
      · by_cases heq : (t.opentab (slotOf id)).o_fileid = id
        · left
          rw [heq]
          omega
        · exact .inr heq

/-- In every run of the file server whose pages' references can be counted, whatever the requests, the
disk and the failures: no id is given
twice or as an error code, an id whose page clients map was given and shares its slot with no other
such id, and exactly these ids are found, besides the indices of slots that were never used. -/
theorem fileids_distinct {xs : List (Act × Option Answer)}
    (hrun : Trace (fun x y y' => Server.Turn x y y' ∧ y'.2.2.Fits) (s, serveInit, Ledger.start) xs
      (s', t', g)) (hfew : g.Few) :
  g.given.Nodup ∧ (∀ id ∈ g.given, id.toNat < 2 ^ 31)
    ∧ (∀ id, 0 < g.holders id → id ∈ g.given
      ∧ ∀ id', 0 < g.holders id' → slotOf id' = slotOf id → id' = id)
    ∧ ∀ id, openfileLookup id t'
      = if 0 < g.holders id ∨ (g.count (slotOf id) = 0 ∧ id.toNat < MAXOPEN) then .ok (slotOf id)
        else .error (-E_INVAL)
  := by
  have h : Tallied t' g := hrun.keeps (I := fun y => y.2.2.Few → Tallied y.2.1 y.2.2)
    (fun _ _ _ h hturn => hturn.1.tallied h hturn.2) (fun _ => tallied_start) hfew
  refine ⟨h.nodup, fun id hin => h.small hfew hin, ?_, h.lookup⟩
  intro id hpos
  obtain ⟨hlatest, hcount⟩ := h.latest id (Nat.ne_of_gt hpos)
  have hknown := h.known (slotOf id) (slotOf_lt id) hcount
  rw [hlatest] at hknown
  refine ⟨hknown, ?_⟩
  intro id' hpos' hslot
  obtain ⟨hlatest', -⟩ := h.latest id' (Nat.ne_of_gt hpos')
  rw [← hlatest', hslot, hlatest]

theorem newId_openB :
  newId FSREQ_OPEN openB false serveInit = some (BitVec.ofNat 32 MAXOPEN)
  := by
  have hrange : List.range MAXOPEN = 0 :: (List.range 1023).map Nat.succ := by
    rw [show MAXOPEN = 1023 + 1 from rfl, List.range_succ_eq_map]
  have hfind : (List.range MAXOPEN).find? (fun i => serveInit.pageref i ≤ 1) = some 0 := by
    rw [hrange]
    exact List.find?_cons_of_pos (decide_eq_true (Nat.zero_le 1))
  have halloc : openfileAlloc false serveInit = (.ok 0, serveInit.take 0) := by
    unfold openfileAlloc
    rw [hfind]
    exact if_neg (fun hcond => Bool.false_ne_true hcond.2)
  rw [newId_taken (by decide) halloc, Server.take_fileid_self]
  rfl

/-- On the small disk a file is created and opened, with the first id. -/
theorem fileids_distinct_tiny :
  ∃ (a : Option Answer) (s : Cache) (t : Server) (g : Ledger),
    Trace (fun x y y' => Server.Turn x y y' ∧ y'.2.2.Fits)
      (Cache.booted (tiny freeRest (fun _ => 0)), serveInit, Ledger.start)
      [(.serve FSREQ_OPEN openB false true, a)] (s, t, g)
    ∧ g.given = [BitVec.ofNat 32 MAXOPEN] ∧ g.given.Nodup
  := by
  have hs : Usable (Cache.booted (tiny freeRest (fun _ => 0))) := usable_tiny
  have hready : Ready (Cache.booted (tiny freeRest (fun _ => 0))).view serveInit FSREQ_OPEN openB := by
    rw [view_booted]
    exact ready_openB
  obtain ⟨⟨a, t⟩, s, hexec, -⟩ := serve_meets false true hs.1 (agree_start hs.2) (fun _ => hready)
  have hturn : Server.Turn (.serve _ _ _ true, _) (_, _, Ledger.start) _ := .serve hexec
  rw [newId_openB] at hturn
  have hfits : (Ledger.start.give (some (BitVec.ofNat 32 MAXOPEN))
      ((a.bind Answer.pg).isSome && true)).Fits := by
    intro id
    have hzero : ∀ id, Ledger.start.holders id = 0 := fun _ => rfl
    rw [Ledger.give]
    dsimp only
    split
    · rw [Function.update_apply, hzero, hzero]
      split
      · decide
      · decide
    · rw [hzero]
      decide
  have hrun : Trace (fun x y y' => Server.Turn x y y' ∧ y'.2.2.Fits)
      (_, serveInit, Ledger.start) _ (_, _, _) := .cons ⟨hturn, hfits⟩ (.nil _)
  have hfew : (Ledger.start.give (some (BitVec.ofNat 32 MAXOPEN))
      ((a.bind Answer.pg).isSome && true)).Few := by
    intro i hi
    have hzero : Ledger.start.count i = 0 := rfl
    rw [Ledger.give, count_give, hzero]
    split
    · decide
    · decide
  exact ⟨a, _, _, _, hrun, rfl, (fileids_distinct hrun hfew).1⟩

end Jos.Fs
