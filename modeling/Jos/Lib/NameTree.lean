import Mathlib.Data.List.Induction
import Mathlib.Tactic.Common

/-!
# Trees of names

A node has children under names, and a path leads from the root to a node.  As long as no node is a
child twice, and the root is none, a node has one path.  Then a leaf that is linked or unlinked
changes what its own path leads to and nothing else.
-/

/-- The nodes in `In` are a tree: each of them is the child of at most one node under at most one
name, and the root is no child. -/
structure NameTree {N A : Type} (In : N → Prop) (root : N) (child : N → A → Option N) : Prop where
  root_in : In root
  closed : ∀ {d e : N} {a : A}, In d → child d a = some e → In e
  inj : ∀ {d d' e : N} {a a' : A}, In d → In d' → child d a = some e → child d' a' = some e →
    d = d' ∧ a = a'
  top : ∀ {d : N} {a : A}, In d → child d a ≠ some root

namespace NameTree

/-- Follow a path from the node `x`. -/
def resolve {N A : Type} (child : N → A → Option N) (x : N) : List A → Option N
  | [] => some x
  | a :: p => (child x a).bind (fun y => resolve child y p)

variable {N A : Type} {In : N → Prop} {root x y d e : N} {child child' : N → A → Option N} {a b : A}
  {p q : List A}

@[simp]
theorem resolve_nil :
  resolve child x [] = some x
  := rfl

theorem resolve_append :
  resolve child x (p ++ q) = (resolve child x p).bind (fun y => resolve child y q)
  := by
  induction p generalizing x with
  | nil => rfl
  | cons a p ih =>
      rw [List.cons_append, resolve, resolve]
      cases child x a with
      | none => rfl
      | some y => exact ih

theorem resolve_concat :
  resolve child x (p ++ [a]) = (resolve child x p).bind (fun y => child y a)
  := by
  rw [resolve_append]
  congr 1
  funext y
  rw [resolve]
  cases child y a with
  | none => rfl
  | some z => rfl

/-- A path is empty or has a last name. -/
theorem eq_nil_or_concat (p : List A) :
  p = [] ∨ ∃ q a, p = q ++ [a]
  := by
  induction p using List.reverseRecOn with
  | nil => exact Or.inl rfl
  | append_singleton q a _ => exact Or.inr ⟨q, a, rfl⟩

/-- What a path leads to is in the tree. -/
theorem resolve_in (h : NameTree In root child) (hx : In x) (hp : resolve child x p = some y) :
  In y
  := by
  induction p generalizing x with
  | nil =>
      obtain rfl := Option.some.inj hp
      exact hx
  | cons a p ih =>
      rw [resolve, Option.bind_eq_some_iff] at hp
      obtain ⟨z, hz, hrest⟩ := hp
      exact ih (h.closed hx hz) hrest

/-- A node has one path. -/
theorem resolve_inj (h : NameTree In root child) (hp : resolve child root p = some x)
    (hq : resolve child root q = some x) :
  p = q
  := by
  induction p using List.reverseRecOn generalizing q x with
  | nil =>
      obtain rfl := Option.some.inj hp
      obtain rfl | ⟨q, b, rfl⟩ := eq_nil_or_concat q
      · rfl
      · rw [resolve_concat, Option.bind_eq_some_iff] at hq
        obtain ⟨d, hd, htop⟩ := hq
        exact (h.top (h.resolve_in h.root_in hd) htop).elim
  | append_singleton p a ih =>
      rw [resolve_concat, Option.bind_eq_some_iff] at hp
      obtain ⟨d, hd, ha⟩ := hp
      obtain rfl | ⟨q, b, rfl⟩ := eq_nil_or_concat q
      · obtain rfl := Option.some.inj hq
        exact (h.top (h.resolve_in h.root_in hd) ha).elim
      · rw [resolve_concat, Option.bind_eq_some_iff] at hq
        obtain ⟨d', hd', hb⟩ := hq
        obtain ⟨rfl, rfl⟩ := h.inj (h.resolve_in h.root_in hd) (h.resolve_in h.root_in hd') ha hb
        rw [ih hd hd']

/-- Nodes that are not reached do not matter. -/
theorem resolve_congr (h : NameTree In root child)
    (hchild : ∀ x, In x → child' x = child x) :
  resolve child' root p = resolve child root p
  := by
  induction p using List.reverseRecOn with
  | nil => rfl
  | append_singleton p a ih =>
      rw [resolve_concat, resolve_concat, ih]
      cases hp : resolve child root p with
      | none => rfl
      | some y => exact congrFun (hchild y (h.resolve_in h.root_in hp)) a

/-- What is linked in the place of a leaf, or of nothing, is found under its path, and nothing else
changes. -/
theorem resolve_update [DecidableEq A] {r : Option N} (h : NameTree In root child)
    (hp : resolve child root p = some d) (hself : child' d a = r)
    (hleaf : ∀ e b, child d a = some e → child e b = none)
    (hleaf' : ∀ e b, r = some e → child' e b = none)
    (hothers : ∀ x b, In x → ¬ (x = d ∧ b = a) → child' x b = child x b) :
  resolve child' root q = if q = p ++ [a] then r else resolve child root q
  := by
  induction q using List.reverseRecOn with
  | nil => rw [if_neg (by simp), resolve_nil, resolve_nil]
  | append_singleton q b ih =>
      rw [resolve_concat, resolve_concat, ih]
      by_cases hqp : q = p ++ [a]
      · -- there is nothing below a leaf
        subst hqp
        have hbelow' : r.bind (fun y => child' y b) = none := by
          cases hr : r with
          | none => rfl
          | some e => exact hleaf' e b hr
        have hbelow : (child d a).bind (fun y => child y b) = none := by
          cases hc : child d a with
          | none => rfl
          | some e => exact hleaf e b hc
        rw [if_pos rfl, hbelow', if_neg (by simp), resolve_concat, hp, Option.bind_some, hbelow]
      · rw [if_neg hqp]
        cases hq : resolve child root q with
        | none =>
            rw [Option.bind_none, Option.bind_none, if_neg]
            intro heq
            rw [(List.append_inj' heq rfl).1, hp] at hq
            cases hq
        | some x =>
            rw [Option.bind_some, Option.bind_some]
            by_cases hxd : x = d ∧ b = a
            · obtain ⟨rfl, rfl⟩ := hxd
              rw [h.resolve_inj hq hp, if_pos rfl, hself]
            · rw [hothers x b (h.resolve_in h.root_in hq) hxd, if_neg]
              intro heq
              obtain ⟨hqp', hba⟩ := List.append_inj' heq rfl
              rw [hqp', hp] at hq
              exact hxd ⟨(Option.some.inj hq).symm, List.singleton_inj.mp hba⟩

end NameTree
