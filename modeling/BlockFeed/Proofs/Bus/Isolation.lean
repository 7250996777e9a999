import BlockFeed.Proofs.Bus.Drain

/-! Readers do not disturb one another. A subscription among others goes the way it would go on a
bus of its own, to which only what concerns it is done. -/

namespace BlockFeed.Bus

/-- What an operation is on a bus where the subscription `id` is the only one. -/
def alone (id : Nat) (b : Bus) : Op → List Op
  | .publish block => [.publish block]
  | .fail e => [.fail e]
  | .close => [.close]
  | .subscribe => match b.subscribe with
    | .ok (i, _) => if i = id then [.subscribe] else []
    | .error _ => []
  | .recv i => if i = id then [.recv 0] else []
  | .unsubscribe i => if i = id then [.unsubscribe 0] else []
  | .drop i => if i = id then [.drop 0] else []

/-- All that concerns a subscription in the course of some operations. -/
abbrev share (b : Bus) (id : Nat) (ops : List Op) : List Op := Run.output step (alone id) b ops

structure Mirrors (id : Nat) (b solo : Bus) : Prop where
  capacity : solo.capacity = b.capacity
  terminal : solo.terminal = b.terminal
  closed : solo.closed = b.closed
  subscriptions : solo.subscriptions = b.subscriptions[id]?.toList

variable {id : Nat} {b solo : Bus}

theorem mirrors_new (capacity id : Nat) : (new capacity).Mirrors id (new capacity) :=
  ⟨rfl, rfl, rfl, rfl⟩

theorem Mirrors.isOver (h : b.Mirrors id solo) : solo.isOver = b.isOver := by
  rw [Bus.isOver, Bus.isOver, h.closed, h.terminal]

theorem Mirrors.getElem? (h : b.Mirrors id solo) : solo.subscriptions[0]? = b.subscriptions[id]? := by
  rw [h.subscriptions]
  cases b.subscriptions[id]? <;> rfl

theorem getElem?_step_none {op : Op} (hs : b.subscriptions[id]? = none) :
    (b.step op).subscriptions[id]? = (b.newcomer op)[id - b.subscriptions.length]? := by
  have hl : b.subscriptions.length ≤ id := List.getElem?_eq_none_iff.mp hs
  rw [subscriptions_step, List.getElem?_append_right (by simpa using hl), List.length_mapIdx]

/-- An operation that concerns the subscription does the same to it on either bus. -/
theorem Mirrors.act (h : b.Mirrors id solo) {op op' : Op} (he : op'.error? = op.error?)
    (hc : op' = .close ↔ op = .close) (hn : b.newcomer op = []) (hn' : solo.newcomer op' = [])
    (heffect : ∀ s, solo.effect 0 s op' = b.effect id s op) :
    (b.step op).Mirrors id (solo.step op') where
  capacity := by rw [capacity_step, capacity_step, h.capacity]
  terminal := by rw [terminal_step, terminal_step, h.terminal, he]
  closed := by
    rw [closed_step, closed_step, h.closed]
    simp only [hc]
  subscriptions := by
    rw [subscriptions_step, hn', List.append_nil, h.subscriptions]
    cases hs : b.subscriptions[id]? with
    | none =>
      rw [getElem?_step_none hs, hn]
      rfl
    | some s =>
      rw [getElem?_step hs op, ← heffect s]
      rfl

/-- An operation that is the business of others leaves the subscription as it is. -/
theorem Mirrors.rest (h : b.Mirrors id solo) {op : Op} (he : op.error? = none) (hc : op ≠ .close)
    (hn : (b.newcomer op)[id - b.subscriptions.length]? = none ∨ b.subscriptions[id]?.isSome = true)
    (heffect : ∀ s, b.effect id s op = s) : (b.step op).Mirrors id solo where
  capacity := by rw [capacity_step, h.capacity]
  terminal := by rw [terminal_step, h.terminal, he, Option.or_none]
  closed := by
    rw [closed_step, h.closed]
    simp [hc]
  subscriptions := by
    rw [h.subscriptions]
    cases hs : b.subscriptions[id]? with
    | none =>
      rw [getElem?_step_none hs]
      rcases hn with hn | hn
      · rw [hn]
      · simp [hs] at hn
    | some s => rw [getElem?_step hs op, heffect s]

theorem Mirrors.subscribe (h : b.Mirrors id solo) :
    (b.step .subscribe).Mirrors id (solo.after (alone id b .subscribe)) := by
  have hnewcomer : solo.newcomer .subscribe = b.newcomer .subscribe := by
    simp only [newcomer, h.closed, h.terminal]
  rw [alone, Bus.subscribe]
  cases hc : b.closed with
  | true => exact h.rest rfl Op.noConfusion (Or.inl (by simp [newcomer, hc])) fun _ => rfl
  | false =>
    have hone : b.newcomer .subscribe = [b.terminal.elim .fresh .halted] := by
      simp [newcomer, hc]
    by_cases hi : b.subscriptions.length = id
    · have hs : b.subscriptions[id]? = none := List.getElem?_eq_none_iff.mpr (Nat.le_of_eq hi)
      have hnew : (b.step .subscribe).Mirrors id (solo.step .subscribe) := by
        refine ⟨?_, ?_, ?_, ?_⟩
        · rw [capacity_step, capacity_step, h.capacity]
        · rw [terminal_step, terminal_step, h.terminal]
        · rw [closed_step, closed_step, h.closed]
        · rw [subscriptions_step, hnewcomer, h.subscriptions, hs, getElem?_step_none hs, hone, hi,
            Nat.sub_self]
          rfl
      cases b.terminal with
      | none => simpa [hi] using hnew
      | some e => simpa [hi] using hnew
    · have hother : (b.newcomer .subscribe)[id - b.subscriptions.length]? = none ∨
          b.subscriptions[id]?.isSome = true := by
        rcases Nat.lt_or_gt_of_ne hi with hlt | hgt
        · refine Or.inl (List.getElem?_eq_none_iff.mpr ?_)
          rw [hone, List.length_singleton]
          omega
        · exact Or.inr (by simp [hgt])
      have hrest : (b.step .subscribe).Mirrors id solo :=
        h.rest rfl Op.noConfusion hother fun _ => rfl
      cases b.terminal with
      | none => simpa [hi] using hrest
      | some e => simpa [hi] using hrest

theorem Mirrors.step (h : b.Mirrors id solo) (op : Op) :
    (b.step op).Mirrors id (solo.after (alone id b op)) := by
  have hown : ∀ (i : Nat) (op op' : Op), op.error? = none → op'.error? = none → op ≠ .close →
      op' ≠ .close → b.newcomer op = [] → solo.newcomer op' = [] →
      (i = id → ∀ s, solo.effect 0 s op' = b.effect id s op) → (i ≠ id → ∀ s, b.effect id s op = s) →
      (b.step op).Mirrors id (solo.after (if i = id then [op'] else [])) := by
    intro i op op' he he' hc hc' hn hn' hsame hother
    by_cases hi : i = id
    · rw [if_pos hi]
      exact h.act (he'.trans he.symm) ⟨fun hh => absurd hh hc', fun hh => absurd hh hc⟩ hn hn' (hsame hi)
    · rw [if_neg hi]
      exact h.rest he hc (Or.inl (by rw [hn]; rfl)) (hother hi)
  cases op with
  | publish block =>
    refine h.act rfl Iff.rfl rfl rfl fun s => ?_
    simp only [effect, h.isOver, h.capacity]
  | fail e =>
    refine h.act rfl Iff.rfl rfl rfl fun s => ?_
    simp only [effect, h.terminal, h.capacity]
  | close =>
    refine h.act rfl Iff.rfl rfl rfl fun s => ?_
    simp only [effect, h.closed]
  | subscribe => exact h.subscribe
  | recv i =>
    exact hown i _ _ rfl rfl Op.noConfusion Op.noConfusion rfl rfl
      (fun hi s => by simp [effect, hi, h.terminal]) fun hi s => by simp [effect, hi]
  | unsubscribe i =>
    exact hown i _ _ rfl rfl Op.noConfusion Op.noConfusion rfl rfl
      (fun hi s => by simp [effect, hi]) fun hi s => by simp [effect, hi]
  | drop i =>
    exact hown i _ _ rfl rfl Op.noConfusion Op.noConfusion rfl rfl
      (fun hi s => by simp [effect, hi]) fun hi s => by simp [effect, hi]

theorem Mirrors.recv (h : b.Mirrors id solo) : (solo.recv 0).1 = (b.recv id).1 := by
  rw [Bus.recv, Bus.recv, h.getElem?, h.terminal]
  cases b.subscriptions[id]? <;> rfl

theorem Mirrors.tell (h : b.Mirrors id solo) (op : Op) :
    Bus.tell id b op = solo.received 0 (alone id b op) := by
  cases op with
  | recv i =>
    by_cases hi : i = id
    · subst hi
      simp [Bus.tell, alone, h.recv]
    · simp [Bus.tell, alone, hi]
  | subscribe =>
    rw [alone]
    split
    · split <;> rfl
    · rfl
  | unsubscribe i =>
    rw [alone]
    split <;> rfl
  | drop i =>
    rw [alone]
    split <;> rfl
  | _ => rfl

theorem Mirrors.run (h : b.Mirrors id solo) (ops : List Op) :
    b.received id ops = solo.received 0 (b.share id ops) ∧
      (b.after ops).Mirrors id (solo.after (b.share id ops)) := by
  induction ops generalizing b solo with
  | nil => exact ⟨rfl, h⟩
  | cons op ops ih =>
    obtain ⟨hreceived, hend⟩ := ih (h.step op)
    have hshare : b.share id (op :: ops) = alone id b op ++ (b.step op).share id ops := rfl
    rw [hshare]
    refine ⟨?_, ?_⟩
    · have hsplit : b.received id (op :: ops) =
          solo.received 0 (alone id b op) ++ (b.step op).received id ops := by
        rw [received, Run.output_cons, h.tell op]
      rw [hsplit, hreceived]
      exact (Run.output_append _ _ _ _ _).symm
    · have hsolo : solo.after (alone id b op ++ (b.step op).share id ops) =
          (solo.after (alone id b op)).after ((b.step op).share id ops) := Run.after_append _ _ _ _
      rw [hsolo]
      exact hend

theorem Mirrors.closeReason (h : b.Mirrors id solo) : solo.closeReason 0 = b.closeReason id := by
  rw [Bus.closeReason, Bus.closeReason, h.getElem?]

/-- Where the same is done to the whole bus and to one subscription, its reader gets the same, however
many others there are and whatever they do. -/
theorem received_eq_of_share_eq {capacity id id' : Nat} {ops ops' : List Op}
    (h : (new capacity).share id ops = (new capacity).share id' ops') :
    (new capacity).received id ops = (new capacity).received id' ops' ∧
      ((new capacity).after ops).closeReason id = ((new capacity).after ops').closeReason id' := by
  obtain ⟨hreceived, hend⟩ := (mirrors_new capacity id).run ops
  obtain ⟨hreceived', hend'⟩ := (mirrors_new capacity id').run ops'
  refine ⟨?_, ?_⟩
  · rw [hreceived, hreceived', h]
  · rw [← hend.closeReason, ← hend'.closeReason, h]

/-- Behind queues of length one, the reader halts the same alone as between one who is evicted and one
who comes late and leaves. -/
theorem received_eq_of_share_eq_crowded :
    let first := Block.empty 1
    let second := Block.empty 2
    let quiet : List Op := [.subscribe, .publish first, .recv 0, .publish second, .recv 0, .recv 0,
      .fail .bufferOverflow, .recv 0, .recv 0]
    let crowded : List Op := [.subscribe, .subscribe, .publish first, .recv 1, .subscribe,
      .publish second, .recv 0, .recv 1, .drop 2, .recv 1, .fail .bufferOverflow, .subscribe, .recv 3,
      .recv 1, .recv 0, .recv 1]
    (new 1).share 0 quiet = (new 1).share 1 crowded ∧
      (new 1).received 1 crowded =
        [.block first, .block second, .pending, .terminal .bufferOverflow, .ended] ∧
      ((new 1).after crowded).closeReason 0 = .slowConsumer ∧
      ((new 1).after crowded).closeReason 1 = .shutdown := by
  intro first second quiet crowded
  have hshare : (new 1).share 0 quiet = (new 1).share 1 crowded := by decide +kernel
  obtain ⟨hreceived, hreason⟩ := received_eq_of_share_eq hshare
  have hquiet : (new 1).received 0 quiet =
      [.block first, .block second, .pending, .terminal .bufferOverflow, .ended] := by decide +kernel
  have hquiet' : ((new 1).after quiet).closeReason 0 = .shutdown := by decide +kernel
  exact ⟨hshare, hreceived.symm.trans hquiet, by decide +kernel, hreason.symm.trans hquiet'⟩

end BlockFeed.Bus
