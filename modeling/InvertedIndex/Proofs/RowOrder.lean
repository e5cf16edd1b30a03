import Mathlib
import InvertedIndex.Row

set_option autoImplicit false
set_option relaxedAutoImplicit false

namespace InvertedIndex.Row

/-- A row may stand before another: its rank is higher, or it is the same and the name does not come
later, byte by byte in UTF-8. -/
def Precedes (a b : Row) : Prop :=
  b.rank < a.rank ∨ a.rank = b.rank ∧ (compareNames a.name b.name).isLE = true

theorem isBefore_iff {a b : Row} : a.isBefore b = true ↔ a.Precedes b := by
  rw [isBefore, Row.compare, Ordering.isLE_then_iff_or, Std.compare_eq_lt,
    Std.LawfulEqOrd.compare_eq_iff_eq, eq_comm (a := b.rank), Precedes]

theorem compareNames_total (a b : String) :
    (compareNames a b).isLE = true ∨ (compareNames b a).isLE = true := by
  have swap : compareNames a b = (compareNames b a).swap := Std.OrientedOrd.eq_swap
  rw [swap]
  cases compareNames b a <;> simp

theorem compareNames_trans {a b c : String} (first : (compareNames a b).isLE = true)
    (second : (compareNames b c).isLE = true) : (compareNames a c).isLE = true :=
  Std.TransOrd.isLE_trans first second

theorem eq_of_compareNames {a b : String} (forth : (compareNames a b).isLE = true)
    (back : (compareNames b a).isLE = true) : a = b := by
  have same := Std.LawfulEqOrd.eq_of_compare (Std.OrientedCmp.isLE_antisymm forth back)
  have bytes : a.toUTF8 = b.toUTF8 := ByteArray.ext (Array.toList_inj.mp same)
  exact String.toByteArray_inj.mp bytes

theorem Precedes.total (a b : Row) : a.Precedes b ∨ b.Precedes a := by
  have names := compareNames_total a.name b.name
  by_cases same : a.rank = b.rank
  · rcases names with forth | back
    · exact Or.inl (Or.inr ⟨same, forth⟩)
    · exact Or.inr (Or.inr ⟨same.symm, back⟩)
  · rcases UInt64.lt_or_lt_of_ne same with lower | higher
    · exact Or.inr (Or.inl lower)
    · exact Or.inl (Or.inl higher)

theorem Precedes.trans {a b c : Row} (first : a.Precedes b) (second : b.Precedes c) :
    a.Precedes c := by
  rcases first with higher | ⟨same, names⟩
  · rcases second with higher' | ⟨same', -⟩
    · exact Or.inl (UInt64.lt_trans higher' higher)
    · exact Or.inl (same' ▸ higher)
  · rcases second with higher' | ⟨same', names'⟩
    · exact Or.inl (same.symm ▸ higher')
    · exact Or.inr ⟨same.trans same', compareNames_trans names names'⟩

theorem Precedes.antisymm {a b : Row} (forth : a.Precedes b) (back : b.Precedes a) : a = b := by
  rcases forth with higher | ⟨same, names⟩
  · rcases back with lower | ⟨same, -⟩
    · exact absurd higher (UInt64.lt_asymm lower)
    · exact absurd same (UInt64.ne_of_lt higher)
  · rcases back with lower | ⟨-, names'⟩
    · exact absurd same (UInt64.ne_of_lt lower)
    · have name := eq_of_compareNames names names'
      cases a
      cases b
      cases same
      cases name
      rfl

instance : Std.Antisymm Precedes :=
  ⟨fun _ _ => Precedes.antisymm⟩

theorem pairwise_sort (rows : List Row) : (sort rows).Pairwise Precedes := by
  have ordered : (sort rows).Pairwise fun a b => a.isBefore b = true := by
    apply List.pairwise_mergeSort
    · intro a b c first second
      exact isBefore_iff.mpr ((isBefore_iff.mp first).trans (isBefore_iff.mp second))
    · intro a b
      rw [Bool.or_eq_true, isBefore_iff, isBefore_iff]
      exact Precedes.total a b
  exact ordered.imp isBefore_iff.mp

theorem sort_perm (rows : List Row) : (sort rows).Perm rows :=
  List.mergeSort_perm rows isBefore

theorem eq_sort_of_perm {answer rows : List Row} (ordered : answer.Pairwise Precedes)
    (same : answer.Perm rows) : answer = sort rows :=
  (same.trans (sort_perm rows).symm).eq_of_pairwise' ordered (pairwise_sort rows)

theorem sort_eq_iff {rows answer : List Row} :
    sort rows = answer ↔ answer.Perm rows ∧ answer.Pairwise Precedes := by
  constructor
  · rintro rfl
    exact ⟨sort_perm rows, pairwise_sort rows⟩
  · rintro ⟨same, ordered⟩
    exact (eq_sort_of_perm ordered same).symm

theorem sort_eq_of_perm {rows others : List Row} (same : rows.Perm others) : sort rows = sort others :=
  eq_sort_of_perm (pairwise_sort rows) ((sort_perm rows).trans same)

theorem sort_append_sort (rows others : List Row) :
    sort (sort rows ++ sort others) = sort (rows ++ others) :=
  sort_eq_of_perm ((sort_perm rows).append (sort_perm others))

theorem sort_sublist_sort {rows others : List Row} (fewer : rows.Subperm others) :
    (sort rows).Sublist (sort others) := by
  have inside : (sort rows).Subperm (sort others) :=
    (sort_perm rows).subperm.trans (fewer.trans (sort_perm others).symm.subperm)
  exact List.sublist_of_subperm_of_pairwise inside (pairwise_sort rows) (pairwise_sort others)

end InvertedIndex.Row
