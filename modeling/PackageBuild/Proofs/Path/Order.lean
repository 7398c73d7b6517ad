import PackageBuild.Path
import Mathlib.Data.List.Sort
/-!
# The order of paths

Paths are ordered by their components, and paths with the same components are equal in this order.
-/

namespace PackageBuild

theorem isLE_compare_total {α : Type} [Ord α] [Std.OrientedOrd α] (a b : α) :
    ((compare a b).isLE || (compare b a).isLE) = true := by
  have swapped : compare b a = (compare a b).swap := Std.OrientedOrd.eq_swap
  rw [swapped]
  cases compare a b <;> rfl

/-- Two lists in increasing order of a key are the same if they have the same elements. -/
theorem eq_of_pairwise_lt {α β : Type} [Ord β] [Std.TransOrd β] (key : α → β)
    {items others : List α}
    (increasing : items.Pairwise fun a b => compare (key a) (key b) = .lt)
    (increasing' : others.Pairwise fun a b => compare (key a) (key b) = .lt)
    (same : ∀ a, a ∈ items ↔ a ∈ others) : items = others := by
  have irreflexive (a : α) : compare (key a) (key a) ≠ .lt := by
    rw [Std.ReflOrd.compare_self]
    simp
  have : Std.Irrefl fun a b => compare (key a) (key b) = .lt := ⟨irreflexive⟩
  have : Std.Antisymm fun a b => compare (key a) (key b) = .lt :=
    ⟨fun a b earlier later => absurd (Std.TransCmp.lt_trans earlier later) (irreflexive a)⟩
  exact increasing.eq_of_mem_iff increasing' same

namespace Path

variable {p q r : Path}

theorem le_trans (first : p.le q = true) (second : q.le r = true) : p.le r = true :=
  Std.TransCmp.isLE_trans first second

theorem le_total (p q : Path) : (p.le q || q.le p) = true :=
  isLE_compare_total p.components q.components

/-- Whether a path comes before another one and is not the same. -/
def Precedes (p q : Path) : Prop := p.le q = true ∧ p.same q = false

theorem precedes_iff : p.Precedes q ↔ compare p.components q.components = .lt := by
  have equal : compare p.components q.components = .eq ↔ p.components = q.components :=
    ⟨Std.LawfulEqOrd.eq_of_compare, fun same => by rw [same]; exact Std.ReflOrd.compare_self⟩
  rw [Precedes, le, same, beq_eq_false_iff_ne, ne_eq, ← equal]
  cases compare p.components q.components <;> simp

theorem Precedes.trans (first : p.Precedes q) (second : q.Precedes r) : p.Precedes r := by
  rw [precedes_iff] at first second ⊢
  exact Std.TransCmp.lt_trans first second

theorem Precedes.of_same (later : q.Precedes r) (equal : p.same q = true) : p.Precedes r := by
  have components : p.components = q.components := by rwa [same, beq_iff_eq] at equal
  rw [precedes_iff] at later ⊢
  rwa [components]

theorem eq_of_pairwise_precedes {paths others : List Path} (increasing : paths.Pairwise Precedes)
    (increasing' : others.Pairwise Precedes) (same : ∀ p, p ∈ paths ↔ p ∈ others) :
    paths = others :=
  eq_of_pairwise_lt components (increasing.imp precedes_iff.mp)
    (increasing'.imp precedes_iff.mp) same

theorem pairwise_le_mergeSort (paths : List Path) :
    (paths.mergeSort le).Pairwise fun p q => p.le q = true := by
  have trans : ∀ p q r : Path, p.le q = true → q.le r = true → p.le r = true :=
    fun _ _ _ => le_trans
  exact List.pairwise_mergeSort trans le_total paths

theorem pairwise_precedes_mergeSort {paths : List Path} (nodup : paths.Nodup)
    (distinct : ∀ p ∈ paths, ∀ q ∈ paths, p.same q = true → p = q) :
    (paths.mergeSort le).Pairwise Precedes := by
  have nodup' : (paths.mergeSort le).Nodup := (List.mergeSort_perm paths le).nodup_iff.mpr nodup
  have sorted := (pairwise_le_mergeSort paths).and nodup'
  refine sorted.imp_of_mem fun {p q} member member' ⟨ordered, differ⟩ => ?_
  rw [List.mem_mergeSort] at member member'
  exact ⟨ordered, eq_false_of_ne_true fun same => differ (distinct p member q member' same)⟩

end Path
end PackageBuild
