/-!
# How large a number can be

Positions, offsets and sizes are natural numbers here. In a machine they end
somewhere, and a sum beyond the largest of them cannot be formed. The program
stops there: there is no answer then, not even a fault.

So a question that adds to a number which the caller is free to choose has no
answer where `Index.add?` has none. All other sums are made of what stands in
memory, and that ends long before the numbers do (`Index.mostBytes`).
-/

namespace TableDump

namespace Index

/-- The largest number. -/
def largest : Nat := 0xFFFFFFFFFFFFFFFF

/-- The most bytes that stand in memory in one piece. -/
def mostBytes : Nat := 0x7FFFFFFFFFFFFFFF

/-- The sum of two numbers, if it is one. -/
def add? (a b : Nat) : Option Nat := if a + b ≤ largest then some (a + b) else none

/-- **Two amounts that stand in memory have a sum**, as memory takes less than half of all
numbers. -/
theorem add_le_largest {a b : Nat} (ha : a ≤ mostBytes) (hb : b ≤ mostBytes) :
    a + b ≤ largest := by
  unfold mostBytes at ha hb
  unfold largest
  omega

theorem add?_eq_some {a b : Nat} (h : a + b ≤ largest) : add? a b = some (a + b) := if_pos h

theorem add?_eq_none {a b : Nat} (h : largest < a + b) : add? a b = none :=
  if_neg (Nat.not_le.2 h)

/-- What is made of a sum is made of the sum of the two, if that is a number. -/
theorem add?_bind {α : Type} (a b : Nat) (next : Nat → Option α) :
    (add? a b >>= next) = if largest < a + b then none else next (a + b) := by
  split
  case isTrue beyond => rw [add?_eq_none beyond]; rfl
  case isFalse within => rw [add?_eq_some (Nat.not_lt.1 within)]; rfl

theorem of_add? {α : Type} {a b : Nat} {next : Nat → Option α} {value : α}
    (h : (add? a b >>= next) = some value) : a + b ≤ largest ∧ next (a + b) = some value := by
  rw [add?_bind] at h
  split at h
  case isTrue => cases h
  case isFalse within => exact ⟨Nat.not_lt.1 within, h⟩

end Index

end TableDump
