import BlockFeed.Proofs.Bus.Register

/-! How subscriptions come to be off the register. Each of them does so once. Three of the ways are
counted, and what is counted are the subscriptions that went that way. -/

namespace BlockFeed

/-- What a log tells of one subscription. -/
def about {α : Type} (id : Nat) (log : List (Nat × α)) : List α :=
  log.filterMap fun e => if e.1 = id then some e.2 else none

section About

variable {α : Type} {id : Nat}

@[simp] theorem about_nil : about id ([] : List (Nat × α)) = [] := rfl

@[simp] theorem about_append (log log' : List (Nat × α)) :
    about id (log ++ log') = about id log ++ about id log' :=
  List.filterMap_append

@[simp] theorem about_map {β : Type} (f : α → β) (log : List (Nat × α)) :
    about id (log.map fun e => (e.1, f e.2)) = (about id log).map f := by
  induction log with
  | nil => rfl
  | cons e log ih =>
    rw [about, about] at ih ⊢
    rw [List.map_cons, List.filterMap_cons, List.filterMap_cons, ih]
    by_cases h : e.1 = id <;> simp [h]

theorem about_range (p : Nat → Bool) (a : α) (n : Nat) :
    about id (((List.range n).filter p).map (·, a)) = if id < n ∧ p id = true then [a] else [] := by
  induction n with
  | zero => simp
  | succ n ih =>
    rw [List.range_succ, List.filter_append, List.map_append, about_append, ih]
    by_cases hid : n = id
    · subst hid
      cases hp : p n <;> simp [about, hp]
    · have hlt : id < n + 1 ↔ id < n := by omega
      cases hp : p n <;> simp [about, hp, hid, hlt]

end About

/-- Why something counts as dropped. -/
inductive DropReason where
  | slowConsumer
  | clientGone
  | shutdown
  | terminal
  deriving Repr, DecidableEq

namespace Bus

/-- How a subscription comes to be off the register. -/
inductive Exit where
  | evicted
  | halted
  | closed
  | unsubscribed
  | dropped
  /-- It came after the feed had halted, and never was on the register. -/
  | late
  deriving Repr, DecidableEq

def Exit.reason? : Exit → Option DropReason
  | .evicted => some .slowConsumer
  | .halted => some .terminal
  | .closed => some .shutdown
  | _ => none

/-- What an operation is to those whom it takes off the register, or does not put on it. -/
def Op.exit? : Op → Option Exit
  | .publish _ => some .evicted
  | .fail _ => some .halted
  | .close => some .closed
  | .unsubscribe _ => some .unsubscribed
  | .drop _ => some .dropped
  | .subscribe => some .late
  | .recv _ => none

/-- The subscriptions off the register that were on it before, or are new. -/
def leaving (b b' : Bus) : List Nat :=
  (List.range b'.subscriptions.length).filter fun id =>
    !b'.isRegistered id && (b.isRegistered id || b.subscriptions.length ≤ id)

def exits (b : Bus) (op : Op) : List (Nat × Exit) :=
  match op.exit? with
  | some x => (b.leaving (b.step op)).map (·, x)
  | none => []

variable {b : Bus} {id : Nat} {s : Subscription} {op : Op}

section One

theorem isRegistered_of (hs : b.subscriptions[id]? = some s) : b.isRegistered id = s.registered := by
  rw [isRegistered, hs]
  rfl

theorem about_exits (hs : b.subscriptions[id]? = some s) (op : Op) : about id (b.exits op) =
    if s.registered = true ∧ (b.effect id s op).registered = false then op.exit?.toList else [] := by
  have hs' := getElem?_step hs op
  have hold : ¬ b.subscriptions.length ≤ id :=
    Nat.not_le.mpr (List.getElem?_eq_some_iff.mp hs).1
  have hlt := (List.getElem?_eq_some_iff.mp hs').1
  rw [exits]
  cases op.exit? with
  | none => simp
  | some x =>
    simp only [leaving, about_range, isRegistered_of hs, isRegistered_of hs']
    simp [hlt, hold, and_comm]

theorem about_exits_newcomer (hopen : b.closed = false) :
    about b.subscriptions.length (b.exits .subscribe) =
      if b.terminal.isSome then [.late] else [] := by
  have hlen : (b.step .subscribe).subscriptions.length = b.subscriptions.length + 1 := by
    rw [length_step, newcomer, hopen]
    rfl
  have hin : (b.step .subscribe).isRegistered b.subscriptions.length = !b.terminal.isSome := by
    rw [isRegistered, subscriptions_step, List.getElem?_append_right (by simp), newcomer, hopen]
    cases b.terminal <;> simp [Subscription.fresh, Subscription.halted]
  simp [exits, Op.exit?, leaving, about_range, hin, hlen]

theorem about_exits_unknown (h : (b.step op).subscriptions.length ≤ id) : about id (b.exits op) = [] := by
  rw [exits]
  cases op.exit? with
  | none => rfl
  | some x =>
    dsimp only
    rw [leaving, about_range, if_neg]
    omega

/-- Whoever is not dropped stays as he is on the register or off it, or is taken off it once. -/
theorem about_exits_of_undropped (hs : b.subscriptions[id]? = some s) (hop : op ≠ .drop id) :
    (b.effect id s op).registered = s.registered ∧ about id (b.exits op) = [] ∨
      s.registered = true ∧ (b.effect id s op).registered = false ∧
        ∃ x, x ≠ .dropped ∧ about id (b.exits op) = [x] := by
  rw [about_exits hs]
  cases hr : (b.effect id s op).registered with
  | true => exact .inl ⟨(registered_effect hr).symm, by simp⟩
  | false =>
    cases hs' : s.registered with
    | false => exact .inl ⟨rfl, by simp⟩
    | true =>
      refine .inr ⟨rfl, rfl, ?_⟩
      cases op with
      | subscribe => simp [effect, hs'] at hr
      | recv i =>
        simp only [effect] at hr
        split at hr <;> simp [hs'] at hr
      | drop i =>
        have hi : i ≠ id := fun he => hop (by rw [he])
        simp [effect, hi, hs'] at hr
      | _ => simp [Op.exit?]

/-- What is told of a subscription on the way of several operations. -/
theorem about_exits_after (hs : b.subscriptions[id]? = some s) {ops : List Op} (hops : .drop id ∉ ops) :
    ∃ t, (b.after ops).subscriptions[id]? = some t ∧
      (t.registered = s.registered ∧ about id (Run.output step exits b ops) = [] ∨
        s.registered = true ∧ t.registered = false ∧
          ∃ x, x ≠ .dropped ∧ about id (Run.output step exits b ops) = [x]) := by
  induction ops generalizing b s with
  | nil => exact ⟨s, hs, .inl ⟨rfl, rfl⟩⟩
  | cons op ops ih =>
    rw [List.mem_cons, not_or] at hops
    obtain ⟨t, ht, hrest⟩ := ih (getElem?_step hs op) hops.2
    refine ⟨t, ht, ?_⟩
    rw [Run.output_cons, about_append]
    rcases about_exits_of_undropped hs (Ne.symm hops.1) with ⟨hsame, hnone⟩ | ⟨hr, hout, x, hx, hone⟩
    · rwa [hnone, List.nil_append, ← hsame]
    · rcases hrest with ⟨hsame, hnone⟩ | ⟨hr', -⟩
      · exact .inr ⟨hr, hsame.trans hout, x, hx, by rw [hone, hnone]; rfl⟩
      · rw [hout] at hr'
        cases hr'

end One

section Counts

def Counts.of (c : Counts) : DropReason → Nat
  | .slowConsumer => c.slowConsumer
  | .clientGone => 0
  | .shutdown => c.shutdown
  | .terminal => c.terminal

/-- The exits that are counted, by reason. -/
def reasons (log : List (Nat × Exit)) : List DropReason := log.filterMap (·.2.reason?)

@[simp] theorem reasons_append (log log' : List (Nat × Exit)) :
    reasons (log ++ log') = reasons log ++ reasons log' :=
  List.filterMap_append

theorem count_reasons (ids : List Nat) (x : Exit) (r : DropReason) :
    (reasons (ids.map (·, x))).count r = if x.reason? = some r then ids.length else 0 := by
  induction ids with
  | nil => simp [reasons]
  | cons id ids ih =>
    have hcons : reasons ((id :: ids).map (·, x)) = x.reason?.toList ++ reasons (ids.map (·, x)) := by
      rw [reasons, List.map_cons, List.filterMap_cons]
      cases x.reason? <;> rfl
    rw [hcons, List.count_append, ih]
    cases hx : x.reason? with
    | none => simp
    | some r' =>
      by_cases hr : r' = r
      · simp [hr, Nat.add_comm]
      · simp [hr]

theorem leaving_self (b : Bus) : b.leaving b = [] := by
  rw [leaving, List.filter_eq_nil_iff]
  intro id hid
  have hlt : ¬ b.subscriptions.length ≤ id := Nat.not_le.mpr (List.mem_range.mp hid)
  cases b.isRegistered id <;> simp [hlt]

theorem length_filter_range {α : Type} (p : α → Bool) (l : List α) :
    ((List.range l.length).filter fun i => l[i]?.any p).length = l.countP p := by
  induction l with
  | nil => rfl
  | cons a l ih =>
    rw [List.length_cons, List.range_succ_eq_map, List.filter_cons, List.countP_cons, ← ih,
      List.filter_map]
    cases h : p a <;> simp [h, Function.comp_def]

/-- What an operation that treats all alike takes off the register. -/
theorem length_leaving {b' : Bus} {f : Subscription → Subscription}
    (h : b'.subscriptions = b.subscriptions.map f) : (b.leaving b').length =
      b.subscriptions.countP fun s => s.registered && !(f s).registered := by
  rw [← length_filter_range, leaving, h, List.length_map]
  congr 1
  refine List.filter_congr fun id hid => ?_
  have hlt := List.mem_range.mp hid
  have hold : ¬ b.subscriptions.length ≤ id := Nat.not_le.mpr hlt
  simp [isRegistered, h, hlt, hold, Bool.and_comm]

theorem exits_of_step_eq (h : b.step op = b) : b.exits op = [] := by
  rw [exits, h, leaving_self]
  cases op.exit? <;> rfl

theorem count_reasons_exits {x : Exit} (hx : op.exit? = some x) (r : DropReason) :
    (reasons (b.exits op)).count r =
      if x.reason? = some r then (b.leaving (b.step op)).length else 0 := by
  rw [exits, hx]
  exact count_reasons _ x r

/-- An operation that is not counted changes no count. -/
theorem count_reasons_uncounted (hx : op.exit?.bind Exit.reason? = none) (r : DropReason) :
    (reasons (b.exits op)).count r = 0 := by
  cases hop : op.exit? with
  | none => simp [exits, hop, reasons]
  | some x =>
    rw [hop, Option.bind_some] at hx
    rw [count_reasons_exits hop, hx]
    rfl

theorem Sound.counts_publish (h : b.Sound) (block : Block) (r : DropReason) :
    (b.step (.publish block)).counts.of r =
      b.counts.of r + (reasons (b.exits (.publish block))).count r := by
  cases hover : b.isOver with
  | true =>
    have hsame : b.step (.publish block) = b := by
      rw [isOver] at hover
      simp [Bus.step, Bus.publish, hover]
    rw [exits_of_step_eq hsame, hsame]
    rfl
  | false =>
    have hmap : (b.step (.publish block)).subscriptions =
        b.subscriptions.map (·.offer b.capacity block) := by
      simp [subscriptions_step, newcomer, Bus.effect, hover, mapIdx_eq_map]
    have hevicted : (b.leaving (b.step (.publish block))).length =
        b.subscriptions.countP (·.evictable b.capacity) := by
      rw [length_leaving hmap]
      refine List.countP_congr fun s hs => ?_
      cases hr : s.registered with
      | false => simp [Subscription.evictable_of_unregistered hr]
      | true =>
        have hlive := h.live hs hr
        rw [hlive.evictable hr, Subscription.offer_of_live hlive hr]
        cases s.isFull b.capacity <;> simp [hr]
    have hopen : ¬ (b.closed || b.terminal.isSome) = true := by
      rw [isOver] at hover
      simp [hover]
    rw [count_reasons_exits rfl, hevicted, Bus.step, Bus.publish, if_neg hopen]
    dsimp only
    split <;> cases r <;> rfl

theorem counts_fail (b : Bus) (e : FeedError) (r : DropReason) :
    (b.step (.fail e)).counts.of r = b.counts.of r + (reasons (b.exits (.fail e))).count r := by
  cases hterm : b.terminal with
  | some e' =>
    have hsame := step_fail_of_halted (by rw [hterm]; rfl) e
    rw [exits_of_step_eq hsame, hsame]
    rfl
  | none =>
    have hmap : (b.step (.fail e)).subscriptions = b.subscriptions.map (·.halt b.capacity e) := by
      simp [subscriptions_step, newcomer, effect, hterm, mapIdx_eq_map]
    have hall : (b.leaving (b.step (.fail e))).length = b.registered := by
      simp [length_leaving hmap, registered]
    rw [count_reasons_exits rfl, hall, step, fail, hterm]
    cases r <;> rfl

theorem counts_close (b : Bus) (r : DropReason) :
    (b.step .close).counts.of r = b.counts.of r + (reasons (b.exits .close)).count r := by
  cases hclosed : b.closed with
  | true =>
    have hsame : b.step .close = b := if_pos hclosed
    rw [exits_of_step_eq hsame, hsame]
    rfl
  | false =>
    have hmap : (b.step .close).subscriptions = b.subscriptions.map Subscription.release := by
      simp [subscriptions_step, newcomer, effect, hclosed, mapIdx_eq_map]
    have hall : (b.leaving (b.step .close)).length = b.registered := by
      simp [length_leaving hmap, registered]
    rw [count_reasons_exits rfl, hall, step, close, hclosed]
    cases r <;> rfl

theorem counts_unsubscribe (b : Bus) (id : Nat) (r : DropReason) :
    (b.unsubscribe id).counts.of r = b.counts.of r := by
  rw [unsubscribe]
  split <;> cases r <;> rfl

/-- Every count goes up with the exits that are counted under it. -/
theorem Sound.counts_step (h : b.Sound) (op : Op) (r : DropReason) :
    (b.step op).counts.of r = b.counts.of r + (reasons (b.exits op)).count r := by
  cases op with
  | publish block => exact h.counts_publish block r
  | fail e => exact b.counts_fail e r
  | close => exact b.counts_close r
  | subscribe =>
    rw [count_reasons_uncounted rfl, Nat.add_zero, Bus.step, Bus.subscribe]
    cases b.closed <;> cases b.terminal <;> cases r <;> rfl
  | recv id =>
    rw [count_reasons_uncounted rfl, Nat.add_zero, Bus.step, recv_snd]
  | unsubscribe id =>
    rw [count_reasons_uncounted rfl, Nat.add_zero]
    exact b.counts_unsubscribe id r
  | drop id =>
    rw [count_reasons_uncounted rfl, Nat.add_zero]
    exact b.counts_unsubscribe id r

theorem Sound.counts_after (h : b.Sound) (ops : List Op) (r : DropReason) :
    (b.after ops).counts.of r = b.counts.of r + (reasons (Run.output Bus.step exits b ops)).count r := by
  induction ops generalizing b with
  | nil => rfl
  | cons op ops ih =>
    have hrest := ih (h.step op)
    rw [Bus.after, Run.after_cons, hrest, h.counts_step, Run.output_cons, reasons_append, List.count_append,
      Nat.add_assoc]

end Counts

end Bus

end BlockFeed
