import Mathlib.Data.List.DropRight

/-!
# Bounded queues

A queue with a capacity: appending to a full one drops the oldest item. It
always holds the last items appended, as many as fit.
-/

namespace Py
set_option autoImplicit false

/-- A queue that keeps at most `maxlen` items. -/
structure Deque (α : Type) where
  maxlen : ℕ
  items : List α
  bounded : items.length ≤ maxlen

namespace Deque
variable {α : Type}

/-- `deque(maxlen=maxlen)`. -/
def empty (maxlen : ℕ) : Deque α := ⟨maxlen, [], Nat.zero_le _⟩

/-- `append`. -/
def append (q : Deque α) (x : α) : Deque α where
  maxlen := q.maxlen
  items := (q.items ++ [x]).rtake q.maxlen
  bounded := by
    rw [List.rtake, List.length_drop]
    omega

@[simp] theorem maxlen_append (q : Deque α) (x : α) : (q.append x).maxlen = q.maxlen := rfl

/-- The last items of a list that has already lost older ones. -/
theorem rtake_rtake_append (n : ℕ) (l : List α) (x : α) : (l.rtake n ++ [x]).rtake n = (l ++ [x]).rtake n := by
  have kept : l.rtake n ++ [x] = (l ++ [x]).drop (l.length - n) := by
    rw [List.rtake, List.drop_append_of_le_length (by omega)]
  rw [kept, List.rtake, List.rtake, List.drop_drop]
  congr 1
  simp only [List.length_drop, List.length_append, List.length_singleton]
  omega

/-- One more item, where the last ones of a list were held. -/
theorem items_append {q : Deque α} {l : List α} (h : q.items = l.rtake q.maxlen) (x : α) :
    (q.append x).items = (l ++ [x]).rtake q.maxlen := by
  show (q.items ++ [x]).rtake q.maxlen = _
  rw [h, rtake_rtake_append]

/-- A list that fits is kept whole. -/
theorem rtake_of_length_le {n : ℕ} {l : List α} (fits : l.length ≤ n) : l.rtake n = l := by
  rw [List.rtake, Nat.sub_eq_zero_of_le fits, List.drop_zero]

theorem length_rtake (n : ℕ) (l : List α) : (l.rtake n).length = min n l.length := by
  rw [List.rtake, List.length_drop]
  omega

end Deque

end Py
