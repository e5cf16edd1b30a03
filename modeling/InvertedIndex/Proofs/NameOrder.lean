import InvertedIndex.Proofs.RowOrder
import InvertedIndex.Proofs.WellFormedText

/-!
Of two code points the smaller one is spelled by the smaller bytes, so names are in the order of
their code points, and an answer has one order.
-/

set_option autoImplicit false
set_option relaxedAutoImplicit false

namespace InvertedIndex

namespace Text

def codePoints (text : String) : List Nat :=
  text.toList.map fun c => c.val.toNat

/-- The bytes that spell a code point in UTF-8, as numbers: a lead, and then six bits in each byte. -/
def spelling (point : Nat) : List Nat :=
  if point ≤ 0x7F then [point]
  else if point ≤ 0x7FF then [0xC0 + point / 64, 0x80 + point % 64]
  else if point ≤ 0xFFFF then
    [0xE0 + point / 64 / 64, 0x80 + point / 64 % 64, 0x80 + point % 64]
  else
    [0xF0 + point / 64 / 64 / 64, 0x80 + point / 64 / 64 % 64, 0x80 + point / 64 % 64,
      0x80 + point % 64]

theorem map_toNat_utf8EncodeChar (c : Char) :
    (String.utf8EncodeChar c).map UInt8.toNat = spelling c.val.toNat := by
  have valid : c.val.toNat < 0xD800 ∨ 0xDFFF < c.val.toNat ∧ c.val.toNat < 0x110000 := c.valid
  simp only [String.utf8EncodeChar, spelling]
  split_ifs <;>
    simp only [List.map_cons, List.map_nil, UInt8.toNat_ofNat', List.cons.injEq, and_true] <;> omega

theorem compare_map_toNat (s t : List UInt8) :
    compare (s.map UInt8.toNat) (t.map UInt8.toNat) = compare s t := by
  induction s generalizing t with
  | nil => cases t <;> rfl
  | cons a s ih =>
    cases t with
    | nil => rfl
    | cons b t =>
      have numbers : compare a.toNat b.toNat = compare a b := by
        simp only [compare, compareOfLessAndEq, UInt8.lt_iff_toNat_lt, UInt8.toNat_inj]
      rw [List.map_cons, List.map_cons, List.compare_cons_cons, List.compare_cons_cons, ih, numbers]

theorem compare_append_left (front s t : List Nat) :
    compare (front ++ s) (front ++ t) = compare s t := by
  induction front with
  | nil => rfl
  | cons n front ih =>
    rw [List.cons_append, List.cons_append, List.compare_cons_cons, Std.ReflOrd.compare_self, ih]
    rfl

theorem compare_cons_eq_lt {m n : Nat} {s t : List Nat} :
    compare (m :: s) (n :: t) = .lt ↔ m < n ∨ m = n ∧ compare s t = .lt := by
  rw [List.compare_cons_cons, Ordering.then_eq_lt, Nat.compare_eq_lt, Nat.compare_eq_eq]

/-- The spellings of two code points differ, and the first difference is in favour of the smaller one: by the
lead if they are of different lengths, and by the highest bits that differ if they are not. -/
theorem compare_spelling_of_lt {m n : Nat} (less : m < n) (s t : List Nat) :
    compare (spelling m ++ s) (spelling n ++ t) = .lt := by
  unfold spelling
  split_ifs <;> simp only [List.cons_append, List.nil_append, compare_cons_eq_lt] <;> omega

theorem compare_flatMap_spelling (points others : List Nat) :
    compare (points.flatMap spelling) (others.flatMap spelling) = compare points others := by
  have some (n : Nat) (rest : List Nat) : ∃ lead tail, spelling n ++ rest = lead :: tail := by
    unfold spelling
    split_ifs <;> exact ⟨_, _, rfl⟩
  induction points generalizing others with
  | nil =>
    cases others with
    | nil => rfl
    | cons n others =>
      obtain ⟨lead, tail, spelled⟩ := some n (others.flatMap spelling)
      rw [List.flatMap_cons, spelled]
      rfl
  | cons m points ih =>
    cases others with
    | nil =>
      obtain ⟨lead, tail, spelled⟩ := some m (points.flatMap spelling)
      rw [List.flatMap_cons, spelled]
      rfl
    | cons n others =>
      rw [List.flatMap_cons, List.flatMap_cons, List.compare_cons_cons]
      rcases Nat.lt_trichotomy m n with less | rfl | greater
      · rw [compare_spelling_of_lt less, Nat.compare_eq_lt.mpr less]
        rfl
      · rw [compare_append_left, ih, Std.ReflOrd.compare_self]
        rfl
      · rw [Std.OrientedOrd.eq_swap, compare_spelling_of_lt greater, Nat.compare_eq_gt.mpr greater]
        rfl

end Text

namespace Row

open Text (codePoints)

theorem compareNames_eq (a b : String) : compareNames a b = compare (codePoints a) (codePoints b) := by
  have spelled (name : String) :
      name.toUTF8.data.toList.map UInt8.toNat = (codePoints name).flatMap Text.spelling := by
    rw [Text.toList_toUTF8, List.map_flatMap, codePoints, List.flatMap_map]
    simp only [Text.map_toNat_utf8EncodeChar]
  rw [compareNames, ← Text.compare_map_toNat, spelled, spelled, Text.compare_flatMap_spelling]

theorem compare_swap (a b : Row) : b.compare a = (a.compare b).swap := by
  have names : compareNames b.name a.name = (compareNames a.name b.name).swap := Std.OrientedOrd.eq_swap
  have ranks : compare a.rank b.rank = (compare b.rank a.rank).swap := Std.OrientedOrd.eq_swap
  rw [Row.compare, Row.compare, Ordering.swap_then, names, ranks]

theorem compare_eq_eq {a b : Row} : a.compare b = .eq ↔ a.name = b.name ∧ a.rank = b.rank := by
  have names : compareNames a.name b.name = .eq ↔ a.name = b.name := by
    constructor
    · intro same
      exact Text.eq_of_toUTF8 (Std.LawfulEqOrd.eq_of_compare same)
    · intro same
      rw [same]
      exact Std.ReflOrd.compare_self
  rw [Row.compare, Ordering.then_eq_eq, Std.LawfulEqOrd.compare_eq_iff_eq, names, and_comm,
    eq_comm (a := b.rank)]

theorem compare_eq_lt {a b : Row} :
    a.compare b = .lt ↔
      b.rank.toNat < a.rank.toNat ∨ a.rank = b.rank ∧ compareNames a.name b.name = .lt := by
  rw [Row.compare, Ordering.then_eq_lt, Std.compare_eq_lt, UInt64.lt_iff_toNat_lt,
    Std.LawfulEqOrd.compare_eq_iff_eq, eq_comm (a := b.rank)]

/-- Rows are in one linear order: higher ranks come first, and at equal rank the bytes of the names decide,
which is to say their code points. So some rows can be put in order in one way only; whatever order they
come in, and whether equal rows keep their places or not, cannot be told from the outcome. -/
theorem answers_have_one_order :
    (∀ a b : Row,
      ((a.compare b).isLE ∨ (b.compare a).isLE) ∧
      b.compare a = (a.compare b).swap ∧
      (a.compare b = .eq ↔ a.name = b.name ∧ a.rank = b.rank) ∧
      (a.compare b = .eq ↔ (a == b) = true) ∧
      ((a.compare b).isLE → (b.compare a).isLE → a = b) ∧
      (∀ c : Row, (a.compare b).isLE → (b.compare c).isLE → (a.compare c).isLE) ∧
      (a.compare b = .lt ↔ b.rank.toNat < a.rank.toNat ∨
        a.rank = b.rank ∧ compare a.name.toUTF8.data.toList b.name.toUTF8.data.toList = .lt)) ∧
    (∀ name other : String, compare name.toUTF8.data.toList other.toUTF8.data.toList =
      compare (codePoints name) (codePoints other)) ∧
    ∀ rows : List Row,
      (sort rows).Perm rows ∧ (sort rows).Pairwise (fun a b => (a.compare b).isLE) ∧
      sort (sort rows) = sort rows ∧
      (∀ others, others.Perm rows → sort others = sort rows) ∧
      ∀ answer : List Row, answer.Perm rows → answer.Pairwise (fun a b => (a.compare b).isLE) →
        answer = sort rows := by
  have before {a b : Row} : (a.compare b).isLE = true ↔ a.Precedes b := isBefore_iff
  refine ⟨fun a b => ⟨?_, compare_swap a b, compare_eq_eq, ?_, ?_, fun c => ?_, compare_eq_lt⟩,
    compareNames_eq, fun rows => ⟨sort_perm rows, ?_, sort_eq_of_perm (sort_perm rows),
      fun others => sort_eq_of_perm, fun answer same ordered => ?_⟩⟩
  · rw [before, before]
    exact Precedes.total a b
  · rw [compare_eq_eq, beq_iff_eq]
    constructor
    · rintro ⟨name, rank⟩
      cases a
      cases b
      cases name
      cases rank
      rfl
    · rintro rfl
      exact ⟨rfl, rfl⟩
  · rw [before, before]
    exact Precedes.antisymm
  · rw [before, before, before]
    exact Precedes.trans
  · exact (pairwise_sort rows).imp before.mpr
  · exact eq_sort_of_perm (ordered.imp before.mp) same

theorem answers_have_one_order_mixed :
    sort [⟨"b", 1⟩, ⟨"😀", 1⟩, ⟨"\uFFFD", 1⟩, ⟨"a", 10⟩, ⟨"", 1⟩] =
      [⟨"a", 10⟩, ⟨"", 1⟩, ⟨"b", 1⟩, ⟨"\uFFFD", 1⟩, ⟨"😀", 1⟩] := by
  obtain ⟨-, -, sorted⟩ := answers_have_one_order
  exact ((sorted _).2.2.2.2 _ (by decide +kernel) (by decide +kernel)).symm

end Row

end InvertedIndex
