/-
Turpial.Lib.Acyclic — relations without cycles, and what becomes of one
when a single element is pointed somewhere else.

The relation is the graph of a pointer structure or of a forwarding table
spread over many nodes: every node decides alone where it points, and the
question is whether following the pointers comes back. Two answers:

* `Acyclic.redirect_iff` — pointing `a` at `b` keeps the graph acyclic
  exactly when `b` did not lead to `a` before.
* `acyclic_of_descent` — values that go down along every pointer keep it
  acyclic. A node may have several values, as a table may have several
  entries: all of the target lie below one of the source.
-/
import Mathlib.Logic.Relation
import Mathlib.Order.Basic

namespace Turpial.Lib

open Relation

variable {ι κ : Type} {r r' : ι → ι → Prop} {a b : ι}

/-- No element leads back to itself. -/
def Acyclic (r : ι → ι → Prop) : Prop := ∀ a, ¬ TransGen r a a

theorem Acyclic.mono (h : Acyclic r) (hle : ∀ x y, r' x y → r x y) : Acyclic r' :=
  fun x hloop => h x (TransGen.mono hle _ _ hloop)

/-- `r'` is `r` with `a` pointed at `b`. Its other pointers may be lost. -/
structure Redirected (r r' : ι → ι → Prop) (a b : ι) : Prop where
  old : ∀ x y, r' x y → r x y ∨ (x = a ∧ y = b)
  new : r' a b
  others : ∀ x y, x ≠ a → r x y → r' x y

/-- A way to `a` does not use the pointers of `a`. -/
theorem Redirected.leads (h : Redirected r r' a b) {x : ι} (hx : ReflTransGen r x a) :
    ReflTransGen r' x a := by
  induction hx using ReflTransGen.head_induction_on with
  | refl => exact .refl
  | @head x y hxy _ ih =>
    by_cases hxa : x = a
    · subst hxa
      exact .refl
    · exact .head (h.others x y hxa hxy) ih

/-- A way through `r'` is one through `r`, or one to `a` and on from `b`. -/
theorem Redirected.cases {x y : ι} (hold : ∀ x y, r' x y → r x y ∨ (x = a ∧ y = b))
    (h : TransGen r' x y) : TransGen r x y ∨ (ReflTransGen r x a ∧ ReflTransGen r b y) := by
  induction h with
  | single hxy =>
    rcases hold _ _ hxy with hxy | ⟨rfl, rfl⟩
    · exact Or.inl (.single hxy)
    · exact Or.inr ⟨.refl, .refl⟩
  | tail _ hyz ih =>
    rcases hold _ _ hyz with hyz | ⟨rfl, rfl⟩
    · exact ih.imp (·.tail hyz) fun ⟨hxa, hby⟩ => ⟨hxa, hby.tail hyz⟩
    · exact Or.inr ⟨ih.elim TransGen.to_reflTransGen And.left, .refl⟩

/-- Without a way from `b` to `a`, pointing `a` at `b` closes no cycle. -/
theorem Acyclic.redirect (h : Acyclic r) (hold : ∀ x y, r' x y → r x y ∨ (x = a ∧ y = b))
    (hno : ¬ ReflTransGen r b a) : Acyclic r' := by
  intro x hloop
  rcases Redirected.cases hold hloop with hloop | ⟨hxa, hbx⟩
  · exact h x hloop
  · exact hno (hbx.trans hxa)

/-- Pointing `a` at `b` closes a cycle exactly when `b` leads to `a`. -/
theorem Acyclic.redirect_iff (h : Acyclic r) (hr : Redirected r r' a b) :
    Acyclic r' ↔ ¬ ReflTransGen r b a :=
  ⟨fun hacyclic hba => hacyclic a (.head' hr.new (hr.leads hba)), h.redirect hr.old⟩

/-- Every pointer goes from a node with some value to one whose values are
all smaller. -/
theorem acyclic_of_descent [Preorder κ] (V : ι → κ → Prop)
    (h : ∀ x y, r x y → ∃ v, V x v ∧ ∀ w, V y w → w < v) : Acyclic r := by
  have hpath : ∀ {x y}, TransGen r x y → ∃ v, V x v ∧ ∀ w, V y w → w < v := by
    intro x y hxy
    induction hxy with
    | single hxy => exact h _ _ hxy
    | tail _ hyz ih =>
      obtain ⟨v, hv, hbelow⟩ := ih
      obtain ⟨w, hw, hbelow'⟩ := h _ _ hyz
      exact ⟨v, hv, fun u hu => lt_trans (hbelow' u hu) (hbelow w hw)⟩
  intro x hloop
  obtain ⟨v, hv, hbelow⟩ := hpath hloop
  exact lt_irrefl v (hbelow v hv)

end Turpial.Lib
