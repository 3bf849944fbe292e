/-
# Connections

A chat model keeps one connection open and uses it for all of its requests.  The first use opens
it; closing the model closes it, and the next use opens another.
-/

namespace PagePlan.ChatModel

/-- The connections of a chat model, numbered in the order in which they were opened. -/
structure Connections where
  /-- The connection in use. -/
  held : Option Nat := none
  /-- How many were opened so far. -/
  opened : Nat := 0
  closed : List Nat := []

namespace Connections

/-- The connection to use, opened if none is. -/
def use (c : Connections) : Nat × Connections :=
  match c.held with
  | some n => (n, c)
  | none => (c.opened, { c with held := some c.opened, opened := c.opened + 1 })

/-- Closes the connection in use, if there is one. -/
def close (c : Connections) : Connections :=
  match c.held with
  | some n => { c with held := none, closed := n :: c.closed }
  | none => c

theorem held_use (c : Connections) : c.use.2.held = some c.use.1 := by
  unfold use
  split
  · assumption
  · rfl

/-- One connection serves until it is closed. -/
theorem use_use (c : Connections) : c.use.2.use = c.use := by
  have h := held_use c
  rw [use, h]

@[simp] theorem held_close (c : Connections) : c.close.held = none := by
  unfold close
  split
  · rfl
  · assumption

end Connections

end PagePlan.ChatModel
