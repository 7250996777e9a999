/-! The lengths of queues: every queue has room for one message at least. -/

namespace BlockFeed

/-- The length of a queue that is asked to have length `n`. -/
def capacityFor (n : Nat) : Nat := if n = 0 then 1 else n

theorem capacityFor_pos (n : Nat) : 0 < capacityFor n := by
  unfold capacityFor
  split <;> omega

end BlockFeed
