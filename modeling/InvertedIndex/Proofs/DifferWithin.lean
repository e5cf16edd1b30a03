import Mathlib.Data.List.Basic

set_option autoImplicit false
set_option relaxedAutoImplicit false

namespace InvertedIndex

/-- Two files of one length that differ, but only inside a window of some width. -/
structure DifferWithin (width : Nat) (file other : List UInt8) : Prop where
  length : other.length = file.length
  differ : other ≠ file
  outside : ∃ start, ∀ i, ¬(start ≤ i ∧ i < start + width) → other[i]? = file[i]?

namespace DifferWithin

variable {width : Nat} {file other : List UInt8}

theorem drop (h : DifferWithin width file other) {n : Nat} (front : other.take n = file.take n) :
    DifferWithin width (file.drop n) (other.drop n) := by
  obtain ⟨start, outside⟩ := h.outside
  refine ⟨?_, fun rest => h.differ ?_, start - n, fun i free => ?_⟩
  · rw [List.length_drop, List.length_drop, h.length]
  · rw [← List.take_append_drop n other, ← List.take_append_drop n file, front, rest]
  · rw [List.getElem?_drop, List.getElem?_drop]
    exact outside (n + i) (by omega)

/-- The window can be cut out of both files: what stands in front of it and behind it is common to them. -/
theorem iff_split :
    DifferWithin width file other ↔ ∃ front others bytes back,
      other = front ++ (others ++ back) ∧ file = front ++ (bytes ++ back) ∧
        others.length = bytes.length ∧ bytes.length ≤ width ∧ others ≠ bytes := by
  constructor
  · rintro ⟨length, differ, start, outside⟩
    have cut (run : List UInt8) :
        run = run.take start ++ ((run.drop start).take width ++ (run.drop start).drop width) := by
      rw [List.take_append_drop, List.take_append_drop]
    have front : other.take start = file.take start := by
      apply List.ext_getElem?
      intro i
      rw [List.getElem?_take, List.getElem?_take]
      by_cases before : i < start
      · rw [if_pos before, if_pos before, outside i (by omega)]
      · rw [if_neg before, if_neg before]
    have back : (other.drop start).drop width = (file.drop start).drop width := by
      apply List.ext_getElem?
      intro i
      rw [List.drop_drop, List.drop_drop, List.getElem?_drop, List.getElem?_drop]
      exact outside _ (by omega)
    refine ⟨file.take start, (other.drop start).take width, (file.drop start).take width,
      (file.drop start).drop width, ?_, cut file, ?_, List.length_take_le _ _, fun same => ?_⟩
    · rw [← front, ← back]
      exact cut other
    · rw [List.length_take, List.length_take, List.length_drop, List.length_drop, length]
    · apply differ
      rw [cut other, cut file, front, back, same]
  · rintro ⟨front, others, bytes, back, rfl, rfl, length, short, differ⟩
    refine ⟨by simp [length], fun same => differ ?_, front.length, fun i free => ?_⟩
    · exact List.append_cancel_right (List.append_cancel_left same)
    · by_cases before : i < front.length
      · rw [List.getElem?_append_left before, List.getElem?_append_left before]
      · rw [List.getElem?_append_right (by omega), List.getElem?_append_right (by omega),
          List.getElem?_append_right (by omega), List.getElem?_append_right (by omega), length]

end DifferWithin

end InvertedIndex
