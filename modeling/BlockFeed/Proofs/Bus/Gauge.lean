import BlockFeed.Proofs.Bus.Operation

/-! The gauge of registered subscriptions. It is set only where the bus knows the register to have
changed; that is enough, because nothing else changes it. -/

namespace BlockFeed.Bus

/-- What has been said of the number of registered subscriptions is true, nothing being said of none. -/
def Reported (b : Bus) : Prop := b.counts.active.getD 0 = b.registered

theorem reported_new (capacity : Nat) : (new capacity).Reported := rfl

theorem reported_report (b : Bus) : b.report.Reported := rfl

variable {b : Bus}

theorem registered_eq_zero {subscriptions : List Subscription}
    (h : ∀ s ∈ subscriptions, s.registered = false) :
    subscriptions.countP (·.registered) = 0 := by
  rw [List.countP_eq_zero]
  intro s hs hr
  rw [h s hs] at hr
  cases hr

theorem registered_modify {f : Subscription → Subscription}
    (h : ∀ s : Subscription, (f s).registered = s.registered) (subscriptions : List Subscription)
    (id : Nat) : (subscriptions.modify id f).countP (·.registered) =
      subscriptions.countP (·.registered) := by
  induction subscriptions generalizing id with
  | nil => rw [List.modify_nil]
  | cons s subscriptions ih =>
    cases id with
    | zero => rw [List.modify_zero_cons, List.countP_cons, List.countP_cons, h]
    | succ id => rw [List.modify_succ_cons, List.countP_cons, List.countP_cons, ih]

/-- A block that evicts nobody takes nobody off the register. -/
theorem Sound.registered_offer (h : b.Sound) (block : Block)
    (hnone : b.subscriptions.countP (·.evictable b.capacity) = 0) :
    (b.subscriptions.map (·.offer b.capacity block)).countP (·.registered) = b.registered := by
  rw [List.countP_map, registered]
  refine List.countP_congr fun s hs => ?_
  obtain ⟨id, hid⟩ := List.getElem?_of_mem hs
  have hroom := List.countP_eq_zero.mp hnone s hs
  cases hr : s.registered with
  | false => simp [Subscription.offer_of_unregistered hr, hr]
  | true =>
    have hlive := (h id s hid hr).1
    have hfull : s.isFull b.capacity = false := by
      simpa [Subscription.evictable, hr, hlive.held] using hroom
    simp [Subscription.offer_of_live hlive hr, hfull, hr]

theorem Reported.publish (h : b.Reported) (hs : b.Sound) (block : Block) :
    (b.publish block).2.Reported := by
  rw [Bus.publish]
  split
  · exact h
  · dsimp only
    split
    case isTrue hnone => exact h.trans (hs.registered_offer block hnone).symm
    case isFalse => exact reported_report _

theorem Reported.fail (h : b.Reported) (e : FeedError) : (b.fail e).2.Reported := by
  rw [Bus.fail]
  split
  · exact h
  · have hnone : ∀ s ∈ b.subscriptions.map (·.halt b.capacity e), s.registered = false := by
      intro s hs
      obtain ⟨s, -, rfl⟩ := List.mem_map.mp hs
      exact s.registered_halt b.capacity e
    exact (registered_eq_zero hnone).symm

theorem Reported.subscribe (h : b.Reported) : (b.step .subscribe).Reported := by
  simp only [Bus.step, Bus.subscribe]
  cases b.closed with
  | true => exact h
  | false =>
    cases b.terminal with
    | some e =>
      have hsame : (b.subscriptions ++ [Subscription.halted e]).countP (·.registered) =
          b.registered := by
        rw [List.countP_append]
        rfl
      exact h.trans hsame.symm
    | none => exact reported_report _

theorem Reported.unsubscribe (h : b.Reported) (id : Nat) : (b.unsubscribe id).Reported := by
  rw [Bus.unsubscribe]
  split
  · exact reported_report _
  · exact h

theorem Reported.drop (h : b.Reported) (id : Nat) : (b.drop id).Reported := by
  have hsame : ∀ s : Subscription, ({ s with held := false } : Subscription).registered = s.registered :=
    fun _ => rfl
  exact (h.unsubscribe id).trans (registered_modify hsame _ id).symm

theorem Reported.recv (h : b.Reported) (id : Nat) : (b.recv id).2.Reported := by
  rw [recv_snd]
  exact h.trans (registered_modify (fun s => s.registered_recv b.terminal) _ id).symm

theorem Reported.close (h : b.Reported) : b.close.Reported := by
  rw [Bus.close]
  split
  · exact h
  · have hnone : ∀ s ∈ b.subscriptions.map Subscription.release, s.registered = false := by
      intro s hs
      obtain ⟨s, -, rfl⟩ := List.mem_map.mp hs
      rfl
    exact (registered_eq_zero hnone).symm

theorem Reported.step (h : b.Reported) (hs : b.Sound) (op : Op) : (b.step op).Reported := by
  cases op with
  | publish block => exact h.publish hs block
  | fail e => exact h.fail e
  | subscribe => exact h.subscribe
  | recv id => exact h.recv id
  | unsubscribe id => exact h.unsubscribe id
  | drop id => exact h.drop id
  | close => exact h.close

theorem Reported.after (h : b.Reported) (hs : b.Sound) (ops : List Op) :
    (b.after ops).Sound ∧ (b.after ops).Reported :=
  Run.after_induction (P := fun b : Bus => b.Sound ∧ b.Reported)
    (fun _ op hb => ⟨hb.1.step op, hb.2.step hb.1 op⟩) ⟨hs, h⟩ ops

end BlockFeed.Bus
