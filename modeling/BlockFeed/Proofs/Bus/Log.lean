import BlockFeed.Proofs.Bus.Operation

/-! What can be seen of the bus: subscriptions registered, blocks handed over, blocks yielded. A
subscription yields what has been handed over since it was registered, from the front and without a
gap. -/

namespace BlockFeed.Bus

inductive Event where
  | registered (id : Nat)
  | handed (block : Block)
  | yielded (id : Nat) (block : Block)
  deriving DecidableEq

def observe (b : Bus) : Op → List Event
  | .publish block => [.handed block]
  | .subscribe => match b.subscribe with
    | .ok (id, _) => [.registered id]
    | .error _ => []
  | .recv id => (b.recv id).1.block?.toList.map (.yielded id)
  | _ => []

abbrev log (b : Bus) (ops : List Op) : List Event := Run.output step observe b ops

namespace Event

def handed? : Event → Option Block
  | .handed block => some block
  | _ => none

def yielded? (id : Nat) : Event → Option Block
  | .yielded i block => if i = id then some block else none
  | _ => none

end Event

def handedIn (log : List Event) : List Block := log.filterMap Event.handed?

/-- The blocks a subscription has yielded, in order. -/
def yieldedIn (id : Nat) (log : List Event) : List Block := log.filterMap (Event.yielded? id)

/-- What has been seen since a subscription was registered. -/
def since (id : Nat) : List Event → List Event
  | [] => []
  | e :: log => if e = .registered id then log else since id log

@[simp] theorem handedIn_append (log log' : List Event) :
    handedIn (log ++ log') = handedIn log ++ handedIn log' :=
  List.filterMap_append

@[simp] theorem yieldedIn_append (id : Nat) (log log' : List Event) :
    yieldedIn id (log ++ log') = yieldedIn id log ++ yieldedIn id log' :=
  List.filterMap_append

theorem since_suffix (id : Nat) (log : List Event) : since id log <:+ log := by
  induction log with
  | nil => exact List.suffix_rfl
  | cons e log ih =>
    simp only [since]
    split
    · exact List.suffix_cons e log
    · exact ih.trans (List.suffix_cons e log)

theorem since_append_of_not_mem {id : Nat} {log : List Event} (h : .registered id ∉ log)
    (log' : List Event) : since id (log ++ log') = since id log' := by
  induction log with
  | nil => rfl
  | cons e log ih =>
    rw [List.mem_cons, not_or] at h
    simp only [List.cons_append, since]
    rw [if_neg (Ne.symm h.1), ih h.2]

theorem handedIn_observe (b : Bus) (op : Op) : handedIn (b.observe op) = op.block?.toList := by
  cases op with
  | subscribe =>
    simp only [observe]
    split <;> rfl
  | recv i => simp [observe, handedIn, Event.handed?, Op.block?]
  | _ => rfl

theorem handedIn_log (b : Bus) (ops : List Op) : handedIn (b.log ops) = ops.filterMap Op.block? := by
  induction ops generalizing b with
  | nil => rfl
  | cons op ops ih =>
    rw [log, Run.output_cons, handedIn_append, handedIn_observe, ih]
    cases h : op.block? <;> simp [h]

theorem yieldedIn_observe_recv {b : Bus} {id : Nat} {s : Subscription}
    (hs : b.subscriptions[id]? = some s) (i : Nat) :
    yieldedIn id (b.observe (.recv i)) =
      if i = id then (s.recv b.terminal).1.block?.toList else [] := by
  by_cases hi : i = id
  · subst hi
    rw [observe, recv_fst hs, if_pos rfl]
    cases (s.recv b.terminal).1.block? <;> simp [yieldedIn, Event.yielded?]
  · rw [observe, if_neg hi]
    cases (b.recv i).1.block? <;> simp [yieldedIn, Event.yielded?, hi]

theorem yieldedIn_observe_of_ne {b : Bus} {id : Nat} {op : Op} (h : op ≠ .recv id) :
    yieldedIn id (b.observe op) = [] := by
  cases op with
  | recv i =>
    have hi : i ≠ id := fun he => h (by rw [he])
    cases hb : (b.recv i).1.block? <;> simp [observe, hb, yieldedIn, Event.yielded?, hi]
  | subscribe =>
    simp only [observe]
    split <;> rfl
  | _ => rfl

/-- What a subscription yields and what it keeps is what it kept before, and the block that comes in
if it stays registered. -/
theorem yieldedIn_observe {b : Bus} (h : b.Sound) {id : Nat} {s : Subscription}
    (hs : b.subscriptions[id]? = some s) (op : Op) :
    yieldedIn id (b.observe op) ++ (b.effect id s op).backlog =
      s.backlog ++ if (b.effect id s op).registered then handedIn (b.observe op) else [] := by
  rw [handedIn_observe]
  cases op with
  | publish block =>
    rw [yieldedIn_observe_of_ne Op.noConfusion, List.nil_append]
    cases hr : s.registered with
    | false => simp [effect, Subscription.offer_of_unregistered hr, hr]
    | true =>
      obtain ⟨hl, ho⟩ := h id s hs hr
      by_cases hf : s.isFull b.capacity = true
      · simp [effect, ho, Subscription.offer_of_live hl hr, hf, Subscription.backlog]
      · simp [effect, ho, Subscription.offer_of_live hl hr, hf, Subscription.backlog,
          FeedMessage.block?, hr, Op.block?]
  | recv i =>
    simp only [Op.block?, Option.toList_none]
    rw [yieldedIn_observe_recv hs, ite_self, List.append_nil, effect]
    by_cases hi : i = id
    · rw [if_pos hi, if_pos hi, Subscription.backlog_recv]
    · rw [if_neg hi, if_neg hi, List.nil_append]
  | drop i =>
    simp only [Op.block?, Option.toList_none]
    rw [yieldedIn_observe_of_ne Op.noConfusion, ite_self, List.append_nil, List.nil_append, effect]
    split <;> rfl
  | _ =>
    simp only [Op.block?, Option.toList_none]
    rw [yieldedIn_observe_of_ne Op.noConfusion, ite_self, List.append_nil, List.nil_append, effect]
    try split
    all_goals simp

theorem yieldedIn_log {b : Bus} (h : b.Sound) {id : Nat} {s : Subscription}
    (hs : b.subscriptions[id]? = some s) (ops : List Op) :
    yieldedIn id (b.log ops) <+:
      s.backlog ++ if s.registered then handedIn (b.log ops) else [] := by
  induction ops generalizing b s with
  | nil => simp [yieldedIn]
  | cons op ops ih =>
    have hh := ih (h.step op) (getElem?_step hs op)
    have ho := yieldedIn_observe h hs op
    simp only [log, Run.output_cons, yieldedIn_append, handedIn_append] at hh ⊢
    -- What comes in after the subscription has ended is not queued: from here on a prefix is left.
    refine ((List.prefix_append_right_inj _).mpr hh).trans ?_
    rw [← List.append_assoc, ho]
    cases ht : (b.effect id s op).registered with
    | true => simp [registered_effect ht]
    | false => simp

/-- While it stays registered, a subscription yields and keeps all that is handed over. -/
theorem yieldedIn_log_of_registered {b : Bus} (h : b.Sound) {id : Nat} {s t : Subscription}
    (hs : b.subscriptions[id]? = some s) {ops : List Op}
    (ht : (b.after ops).subscriptions[id]? = some t) (hr : t.registered = true) :
    yieldedIn id (b.log ops) ++ t.backlog = s.backlog ++ handedIn (b.log ops) := by
  induction ops generalizing b s with
  | nil =>
    rw [after, Run.after_nil, hs] at ht
    cases ht
    simp [yieldedIn, handedIn]
  | cons op ops ih =>
    have he := getElem?_step hs op
    have hh := ih (h.step op) he ht
    have ho := yieldedIn_observe h hs op
    rw [registered_of_after he ht hr, if_pos rfl] at ho
    rw [log, Run.output_cons, yieldedIn_append, handedIn_append, List.append_assoc, hh,
      ← List.append_assoc, ho, List.append_assoc]

theorem yieldedIn_log_of_foreign {b : Bus} {id : Nat} {ops : List Op}
    (h : ∀ op ∈ ops, op.subject? ≠ some id) : yieldedIn id (b.log ops) = [] := by
  induction ops generalizing b with
  | nil => rfl
  | cons op ops ih =>
    have hne : op ≠ .recv id := by
      rintro rfl
      exact h _ List.mem_cons_self rfl
    rw [log, Run.output_cons, yieldedIn_append, yieldedIn_observe_of_ne hne,
      ih fun op' hop => h op' (List.mem_cons_of_mem _ hop), List.append_nil]

theorem yieldedIn_observe_of_absent {b : Bus} {id : Nat} (h : b.subscriptions[id]? = none)
    (op : Op) : yieldedIn id (b.observe op) = [] := by
  by_cases hop : op = .recv id
  · subst hop
    simp [observe, recv, h, Received.block?, yieldedIn]
  · exact yieldedIn_observe_of_ne hop

theorem registered_mem_observe {b : Bus} {id : Nat} {op : Op}
    (h : .registered id ∈ b.observe op) :
    b.observe op = [.registered id] ∧
      ∃ s : Subscription, (b.step op).subscriptions[id]? = some s ∧ s.backlog = [] := by
  cases op with
  | subscribe =>
    simp only [observe, step] at h ⊢
    rw [subscribe] at h ⊢
    cases hc : b.closed with
    | true => simp [hc] at h
    | false =>
      cases ht : b.terminal with
      | none =>
        simp only [hc, ht, Bool.false_eq_true, if_false, List.mem_singleton, Event.registered.injEq]
          at h ⊢
        subst h
        exact ⟨rfl, .fresh, by simp [report], rfl⟩
      | some e =>
        simp only [hc, ht, Bool.false_eq_true, if_false, List.mem_singleton, Event.registered.injEq]
          at h ⊢
        subst h
        exact ⟨rfl, .halted e, by simp, rfl⟩
  | recv i => simp [observe] at h
  | _ => simp [observe] at h

theorem length_step_le {b : Bus} {id : Nat} (hid : b.subscriptions.length ≤ id) {op : Op}
    (h : .registered id ∉ b.observe op) : (b.step op).subscriptions.length ≤ id := by
  rw [length_step]
  cases op with
  | subscribe =>
    cases hc : b.closed with
    | true => simpa [newcomer, hc] using hid
    | false =>
      have hne : b.subscriptions.length ≠ id := by
        intro he
        apply h
        simp only [observe, subscribe, hc, Bool.false_eq_true, if_false]
        cases b.terminal <;> simp [he]
      simp only [newcomer, hc, Bool.false_eq_true, if_false, List.length_singleton]
      omega
  | _ => simpa [newcomer] using hid

/-- A subscription yields what has been handed over since it was registered, from the front. -/
theorem yieldedIn_since {b : Bus} (h : b.Sound) {id : Nat} (hid : b.subscriptions.length ≤ id)
    (ops : List Op) : yieldedIn id (b.log ops) <+: handedIn (since id (b.log ops)) := by
  induction ops generalizing b with
  | nil => simp [yieldedIn]
  | cons op ops ih =>
    have hy := yieldedIn_observe_of_absent (List.getElem?_eq_none_iff.mpr hid) op
    simp only [log, Run.output_cons, yieldedIn_append, hy, List.nil_append]
    by_cases hr : Event.registered id ∈ b.observe op
    · obtain ⟨ho, s, hs, hb⟩ := registered_mem_observe hr
      have hh := yieldedIn_log (h.step op) hs ops
      rw [hb, List.nil_append] at hh
      rw [ho, List.singleton_append, since, if_pos rfl]
      refine hh.trans ?_
      split
      · exact List.prefix_rfl
      · exact List.nil_prefix
    · rw [since_append_of_not_mem hr]
      exact ih (h.step op) (length_step_le hid hr)

end BlockFeed.Bus
