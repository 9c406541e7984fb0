import Mathlib.Data.List.DropRight

/-!
# Sliding windows

A window of at most `n` elements to which elements are added at the end: the oldest one
goes when it is full. It is the end of what has been added.
-/

namespace SlidingWindow

universe u

variable {α : Type u} {n : ℕ}

/-- The oldest element goes when the window is full. -/
def push (n : ℕ) (w : List α) (x : α) : List α :=
  (if w.length = n then w.tail else w) ++ [x]

/-- The window has all elements, or as many as fit. -/
theorem length_rtake (l : List α) (n : ℕ) : (l.rtake n).length = min l.length n := by
  rw [List.rtake, List.length_drop]
  omega

/-- A full window gives up what the next one leaves out. -/
theorem tail_rtake {l : List α} (h : n ≤ l.length) (hn : 0 < n) :
    (l.rtake n).tail = l.rtake (n - 1) := by
  rw [List.rtake, List.rtake, List.tail_drop]
  congr 1
  omega

/-- A window with room for all of them leaves nothing out. -/
theorem rtake_of_length_le {l : List α} (h : l.length ≤ n) : l.rtake n = l := by
  rw [List.rtake, Nat.sub_eq_zero_of_le h, List.drop_zero]

/-- **The window is the end of the stream.** -/
theorem push_rtake (hn : 0 < n) (l : List α) (x : α) :
    push n (l.rtake n) x = (l ++ [x]).rtake n := by
  obtain ⟨k, rfl⟩ : ∃ k, n = k + 1 := ⟨n - 1, by omega⟩
  rw [push, length_rtake, List.rtake_concat_succ]
  by_cases h : k + 1 ≤ l.length
  · rw [if_pos (min_eq_right h), tail_rtake h hn]
    rfl
  · rw [if_neg (by omega), rtake_of_length_le (by omega), rtake_of_length_le (by omega)]

end SlidingWindow
