import BlockFeed.Proofs.Bus.Gauge
import BlockFeed.Proofs.Bus.Terminal

/-! The register of the bus between any two operations. Whoever is on it has a reader and a queue of
nothing but blocks; nobody is on it once the bus is over, and what ended the bus stays. A reader that
lets go of its subscription takes it off the register first, so nobody meets a queue without a reader,
whatever comes between the two. -/

namespace BlockFeed

namespace Subscription

variable {capacity : Nat} {s : Subscription}

theorem halt_of_live (h : s.Live capacity) (hr : s.registered = true) (e : FeedError) :
    s.halt capacity e =
      if s.isFull capacity then s.release
      else { s with registered := false, queue := s.queue ++ [.terminal e] } := by
  by_cases hf : s.isFull capacity = true
  · simp [halt, hr, h.held, hf, release]
  · simp [halt, hr, h.held, hf]

theorem Live.evictable (h : s.Live capacity) (hr : s.registered = true) :
    s.evictable capacity = s.isFull capacity := by
  rw [Subscription.evictable, hr, h.held]
  rfl

theorem evictable_of_unregistered (h : s.registered = false) : s.evictable capacity = false := by
  rw [Subscription.evictable, h]
  rfl

end Subscription

namespace Bus

/-- An operation, or the second half of a drop: once it is off the register, the reader lets go of a
subscription. -/
inductive Act where
  | op (op : Op)
  | letGo (id : Nat)

def act (b : Bus) : Act → Bus
  | .op op => b.step op
  | .letGo id =>
    if b.isRegistered id then b
    else { b with subscriptions := b.subscriptions.modify id fun s => { s with held := false } }

/-- A drop is its two halves. -/
theorem drop_eq_halves (b : Bus) (id : Nat) :
    b.drop id = Run.after act b [.op (.unsubscribe id), .letGo id] := by
  have hoff : (b.unsubscribe id).isRegistered id = false := by
    rw [isRegistered, subscriptions_unsubscribe, List.getElem?_modify_eq]
    cases b.subscriptions[id]? <;> rfl
  show _ = (b.unsubscribe id).act (.letGo id)
  rw [act, hoff]
  rfl

theorem act_letGo (b : Bus) (id : Nat) : b.act (.letGo id) = b ∨ b.act (.letGo id) = b.step (.drop id) := by
  rw [act]
  split
  case isTrue => exact .inl rfl
  case isFalse hoff =>
    refine .inr ?_
    rw [step, drop, unsubscribe, if_neg hoff]

/-- What is done in halves could have been done in whole operations. -/
theorem act_eq_after (b : Bus) (a : Act) : ∃ ops, b.act a = b.after ops := by
  cases a with
  | op op => exact ⟨[op], rfl⟩
  | letGo id =>
    rcases b.act_letGo id with h | h
    · exact ⟨[], h⟩
    · exact ⟨[.drop id], h⟩

variable {b : Bus}

theorem Sound.live (h : b.Sound) {s : Subscription} (hs : s ∈ b.subscriptions)
    (hr : s.registered = true) : s.Live b.capacity := by
  obtain ⟨id, hid⟩ := List.getElem?_of_mem hs
  exact (h id s hid hr).1

theorem capacity_act (b : Bus) (a : Act) : (b.act a).capacity = b.capacity := by
  obtain ⟨ops, hops⟩ := b.act_eq_after a
  rw [hops, capacity_after]

theorem closed_after (h : b.closed = true) (ops : List Op) : (b.after ops).closed = true :=
  Run.after_induction (P := fun c : Bus => c.closed = true) (fun c op hc => by simp [hc]) h ops

theorem isOver_after (h : b.isOver = true) (ops : List Op) : (b.after ops).isOver = true :=
  Run.after_induction (P := fun c : Bus => c.isOver = true)
    (fun c op hc => by rw [isOver_step, hc]; rfl) h ops

/-- What every run of operations keeps is kept by every run in halves. -/
theorem acts_induction {P : Bus → Prop} (hops : ∀ {c : Bus}, P c → ∀ ops, P (c.after ops)) (h : P b)
    (acts : List Act) : P (Run.after act b acts) := by
  refine Run.after_induction (fun c a hc => ?_) h acts
  obtain ⟨ops, heq⟩ := c.act_eq_after a
  exact heq ▸ hops hc ops

/-- Nobody is registered on a bus that is over. -/
theorem Sound.registered_of_over (h : b.Sound) (hover : b.isOver = true) : b.registered = 0 := by
  refine registered_eq_zero fun s hs => ?_
  obtain ⟨id, hid⟩ := List.getElem?_of_mem hs
  cases hr : s.registered with
  | false => rfl
  | true =>
    have hgoing := (h id s hid hr).2
    rw [hover] at hgoing
    cases hgoing

/-- What falls into two parts is counted part by part. -/
theorem countP_add_countP {α : Type} {p q r : α → Bool} {l : List α}
    (h : ∀ a ∈ l, (if q a then 1 else 0) + (if r a then 1 else 0) = if p a then 1 else 0) :
    l.countP q + l.countP r = l.countP p := by
  induction l with
  | nil => rfl
  | cons a l ih =>
    have hrest := ih fun a' ha' => h a' (List.mem_cons_of_mem _ ha')
    have hone := h a List.mem_cons_self
    rw [List.countP_cons, List.countP_cons, List.countP_cons]
    omega

/-- Everybody who is registered gets the block or is evicted. -/
theorem Sound.publish_fst (h : b.Sound) (hgoing : b.isOver = false) (block : Block) :
    (b.publish block).1 + b.subscriptions.countP (·.evictable b.capacity) = b.registered := by
  have hfst : (b.publish block).1 =
      (b.subscriptions.map (·.offer b.capacity block)).countP (·.registered) := by
    have hopen : (b.closed || b.terminal.isSome) = false := hgoing
    rw [publish, if_neg (by simp [hopen])]
    rfl
  rw [hfst, registered, List.countP_map]
  refine countP_add_countP fun s hs => ?_
  rw [Function.comp_apply]
  cases hr : s.registered with
  | false =>
    rw [Subscription.offer_of_unregistered hr, Subscription.evictable_of_unregistered hr, hr]
    rfl
  | true =>
    have hlive := h.live hs hr
    rw [Subscription.offer_of_live hlive hr, hlive.evictable hr]
    cases s.isFull b.capacity with
    | true => rfl
    | false => simp [hr]

/-- Everybody who is registered hears of the error. -/
theorem Sound.fail_fst (h : b.Sound) (hgoing : b.terminal = none) (e : FeedError) :
    (b.fail e).1 = b.registered := by
  rw [fail, hgoing]
  refine List.countP_congr fun s hs => ?_
  cases hr : s.registered with
  | false => simp
  | true => simp [(h.live hs hr).held]

/-- The register of a bus, and what stays as it is from now on. On everybody who is registered, a block
and an error find the queue full or put into it what they bring. -/
structure Regular (b : Bus) : Prop where
  live : ∀ s ∈ b.subscriptions, s.registered = true → s.Live b.capacity
  offered : ∀ s ∈ b.subscriptions, s.registered = true → ∀ block, s.offer b.capacity block =
    if s.isFull b.capacity then { s with registered := false, evicted := true }
    else { s with queue := s.queue ++ [.block block] }
  halted : ∀ s ∈ b.subscriptions, s.registered = true → ∀ e, s.halt b.capacity e =
    if s.isFull b.capacity then s.release
    else { s with registered := false, queue := s.queue ++ [.terminal e] }
  delivered : b.isOver = false → ∀ block,
    (b.publish block).1 + b.subscriptions.countP (·.evictable b.capacity) = b.registered
  notified : b.terminal = none → ∀ e, (b.fail e).1 = b.registered
  emptied : b.closed = true ∨ b.terminal.isSome = true → ∀ acts, (Run.after act b acts).registered = 0
  closed : b.closed = true → ∀ acts, (Run.after act b acts).closed = true
  terminal : ∀ e, b.terminal = some e → ∀ acts, (Run.after act b acts).terminal = some e

theorem Sound.regular (h : b.Sound) : b.Regular where
  live s hs hr := h.live hs hr
  offered s hs hr block := Subscription.offer_of_live (h.live hs hr) hr block
  halted s hs hr e := Subscription.halt_of_live (h.live hs hr) hr e
  delivered := h.publish_fst
  notified := h.fail_fst
  emptied hover acts := by
    have hover' : b.isOver = true := by simpa [isOver] using hover
    obtain ⟨hsound, hlater⟩ := acts_induction (P := fun c : Bus => c.Sound ∧ c.isOver = true)
      (fun hc ops => ⟨hc.1.after ops, isOver_after hc.2 ops⟩) ⟨h, hover'⟩ acts
    exact hsound.registered_of_over hlater
  closed hclosed acts := acts_induction (P := fun c : Bus => c.closed = true) closed_after hclosed acts
  terminal e he acts :=
    acts_induction (P := fun c : Bus => c.terminal = some e) terminal_after_of_halted he acts

/-- However the bus is used, the register is as it should be between any two steps, those within a drop
included. -/
theorem register_regular (capacity : Nat) (acts : List Act) :
    (Run.after act (new capacity) acts).Regular ∧
      (Run.after act (new capacity) acts).capacity = capacityFor capacity := by
  have hsound : (Run.after act (new capacity) acts).Sound :=
    acts_induction (fun hc ops => hc.after ops) (sound_new capacity) acts
  have hcap : (Run.after act (new capacity) acts).capacity = (new capacity).capacity :=
    Run.after_induction (P := fun c : Bus => c.capacity = (new capacity).capacity)
      (fun c a hc => (c.capacity_act a).trans hc) rfl acts
  exact ⟨hsound.regular, hcap⟩

end Bus

end BlockFeed
