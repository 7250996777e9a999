import BlockFeed.Proofs.World.Log
import Mathlib.Data.List.Chain

/-! Nobody sees a gap. What a subscription yields has been handed over since it was registered, and
what is handed over are the blocks of the batches that were accepted, both from the front. -/

namespace BlockFeed.World

/-- What is handed over are the blocks of the first batches accepted. -/
theorem handedIn_eq (capacity subscriberCapacity clientBuffer : Nat) (ops : List Op) :
    let w := new capacity subscriberCapacity clientBuffer
    (Bus.handedIn (w.log ops)).map .ok =
      ((w.accepted ops).take (Bus.handedIn (w.log ops)).length).map Block.ofBatch := by
  intro w
  obtain ⟨done, rest, h⟩ := exists_account capacity subscriberCapacity clientBuffer ops
  rw [← h.published, h.done_eq]

/-- Each height is the one before it plus one. -/
def Consecutive (heights : List UInt64) : Prop := heights.IsChain fun h h' => h'.toNat = h.toNat + 1

/-- A subscription yields what has been handed over since it was registered, from the front; that is
the blocks of batches that were accepted, in the same order, and none is left out. -/
theorem gap_free (capacity subscriberCapacity clientBuffer : Nat) (ops : List Op) :
    let w := new capacity subscriberCapacity clientBuffer
    let log := w.log ops
    (∀ id, Bus.yieldedIn id log <+: Bus.handedIn (Bus.since id log)) ∧
    (∃ k, (Bus.handedIn log).map .ok = ((w.accepted ops).take k).map Block.ofBatch) ∧
    (Consecutive ((w.accepted ops).map Batch.height) →
      ∀ id, Consecutive ((Bus.yieldedIn id log).map Block.height)) := by
  intro w log
  have hyield : ∀ id, Bus.yieldedIn id log <+: Bus.handedIn (Bus.since id log) := by
    intro id
    rw [show log = _ from log_eq w ops]
    exact Bus.yieldedIn_since (Bus.sound_new subscriberCapacity) (Nat.zero_le id) _
  have hhanded := handedIn_eq capacity subscriberCapacity clientBuffer ops
  refine ⟨hyield, ⟨_, hhanded⟩, ?_⟩
  intro hc id
  have hsuffix : Bus.handedIn (Bus.since id log) <:+ Bus.handedIn log :=
    (Bus.since_suffix id log).filterMap _
  have hpart : Bus.yieldedIn id log <:+: Bus.handedIn log :=
    (hyield id).isInfix.trans hsuffix.isInfix
  have hchain : Consecutive ((Bus.handedIn log).map Block.height) := by
    rw [Block.heights_ofBatch hhanded, List.map_take]
    exact hc.take _
  exact hchain.infix (hpart.map Block.height)

/-- A queue of length one is ended by the second block, and its reader is left with the first. -/
example :
    let ops : List Op := [.run, .subscribe, .submit ⟨1, []⟩, .submit ⟨2, []⟩, .task .delivery,
      .subscribe, .task .delivery, .recv 0, .recv 0, .recv 1]
    let log := (new 2 1 1).log ops
    Bus.yieldedIn 0 log = [.empty 1] ∧ Bus.yieldedIn 1 log = [.empty 2] ∧
      Bus.handedIn log = [.empty 1, .empty 2] := by
  decide +kernel

end BlockFeed.World
