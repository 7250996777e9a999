import BlockFeed.Feed.Bus
import BlockFeed.Proofs.Run

/-! Operations on the bus, and what each of them does to one subscription. A registered subscription
has a reader, holds nothing but blocks, and sits on a bus that is neither closed nor halted. -/

namespace BlockFeed

def FeedMessage.block? : FeedMessage → Option Block
  | .block b => some b
  | .terminal _ => none

def Received.block? : Received → Option Block
  | .block b => some b
  | _ => none

namespace Subscription

/-- The blocks that are queued. -/
def backlog (s : Subscription) : List Block := s.queue.filterMap FeedMessage.block?

/-- What holds of a subscription while it is registered. -/
structure Live (capacity : Nat) (s : Subscription) : Prop where
  held : s.held = true
  kept : s.evicted = false
  unhalted : s.seenTerminal = false
  bounded : s.queue.length ≤ capacity
  blocks : s.queue = s.backlog.map .block

theorem fresh_live (capacity : Nat) : fresh.Live capacity :=
  ⟨rfl, rfl, rfl, Nat.zero_le _, rfl⟩

theorem offer_of_live {capacity : Nat} {s : Subscription} (h : s.Live capacity)
    (hr : s.registered = true) (block : Block) :
    s.offer capacity block =
      if s.isFull capacity then { s with registered := false, evicted := true }
      else { s with queue := s.queue ++ [.block block] } := by
  simp [offer, hr, h.held]

theorem offer_of_unregistered {capacity : Nat} {s : Subscription} (h : s.registered = false)
    (block : Block) : s.offer capacity block = s := by
  simp [offer, h]

theorem halt_of_unregistered {capacity : Nat} {s : Subscription} (h : s.registered = false)
    (e : FeedError) : s.halt capacity e = s := by
  simp [halt, h]

@[simp] theorem registered_halt (capacity : Nat) (e : FeedError) (s : Subscription) :
    (s.halt capacity e).registered = false := by
  rw [halt]
  split
  · simp_all
  · split <;> rfl

@[simp] theorem registered_release (s : Subscription) : s.release.registered = false := rfl

theorem release_of_unregistered {s : Subscription} (h : s.registered = false) : s.release = s := by
  cases s
  simp_all [release]

@[simp] theorem registered_recv (terminal : Option FeedError) (s : Subscription) :
    (s.recv terminal).2.registered = s.registered := by
  simp only [recv]
  split
  · rfl
  · rfl
  · split
    · rfl
    · split
      · rfl
      · split <;> rfl

@[simp] theorem evicted_recv (s : Subscription) (terminal : Option FeedError) :
    (s.recv terminal).2.evicted = s.evicted := by
  simp only [recv]
  split
  · rfl
  · rfl
  · split
    · rfl
    · split
      · rfl
      · split <;> rfl

@[simp] theorem backlog_release (s : Subscription) : s.release.backlog = s.backlog := rfl

@[simp] theorem backlog_halt (capacity : Nat) (e : FeedError) (s : Subscription) :
    (s.halt capacity e).backlog = s.backlog := by
  rw [halt]
  split
  · rfl
  · split
    · simp [backlog, FeedMessage.block?]
    · rfl

theorem backlog_recv (terminal : Option FeedError) (s : Subscription) :
    (s.recv terminal).1.block?.toList ++ (s.recv terminal).2.backlog = s.backlog := by
  simp only [recv]
  split
  · rename_i block rest hq
    simp [backlog, hq, Received.block?, FeedMessage.block?]
  · rename_i e rest hq
    simp only [backlog, hq]
    rw [List.filterMap_cons_none rfl]
    rfl
  · split
    · rfl
    · split
      · rfl
      · split <;> rfl

theorem Live.registered_offer {capacity : Nat} {s : Subscription} (h : s.Live capacity)
    (hr : s.registered = true) {block : Block} (ho : (s.offer capacity block).registered = true) :
    s.offer capacity block = { s with queue := s.queue ++ [.block block] } ∧
      s.queue.length < capacity := by
  rw [offer_of_live h hr] at ho ⊢
  by_cases hf : s.isFull capacity = true
  · simp [hf] at ho
  · rw [if_neg hf]
    refine ⟨rfl, ?_⟩
    simpa [isFull] using hf

theorem Live.append {capacity : Nat} {s : Subscription} (h : s.Live capacity) (block : Block)
    (hl : s.queue.length < capacity) :
    { s with queue := s.queue ++ [.block block] : Subscription }.Live capacity where
  held := h.held
  kept := h.kept
  unhalted := h.unhalted
  bounded := by simp only [List.length_append, List.length_singleton]; omega
  blocks := by
    have hb := h.blocks
    simp only [backlog] at hb ⊢
    rw [List.filterMap_append, List.map_append, ← hb]
    rfl

theorem Live.recv {capacity : Nat} {s : Subscription} (h : s.Live capacity)
    (hr : s.registered = true) (terminal : Option FeedError) :
    (s.recv terminal).2.Live capacity := by
  obtain ⟨queue, registered, held, evicted, seenTerminal⟩ := s
  obtain ⟨hh, hk, hu, hl, hb⟩ := h
  cases queue with
  | nil =>
    have hs : (Subscription.recv terminal ⟨[], registered, held, evicted, seenTerminal⟩).2 =
        ⟨[], registered, held, evicted, seenTerminal⟩ := by
      simp only at hr
      simp [Subscription.recv, hr]
    rw [hs]
    exact ⟨hh, hk, hu, hl, hb⟩
  | cons m rest =>
    cases m with
    | block block => exact ⟨hh, hk, hu, Nat.le_of_succ_le hl, (List.cons.inj hb).2⟩
    | terminal e =>
      have he : FeedMessage.terminal e ∈
          (Subscription.mk (.terminal e :: rest) registered held evicted seenTerminal).backlog.map
            FeedMessage.block := hb ▸ List.mem_cons_self
      simp at he

end Subscription

namespace Bus

inductive Op where
  | publish (block : Block)
  | fail (e : FeedError)
  | subscribe
  | recv (id : Nat)
  | unsubscribe (id : Nat)
  | drop (id : Nat)
  | close
  deriving DecidableEq

def step (b : Bus) : Op → Bus
  | .publish block => (b.publish block).2
  | .fail e => (b.fail e).2
  | .subscribe => match b.subscribe with
    | .ok (_, b) => b
    | .error _ => b
  | .recv id => (b.recv id).2
  | .unsubscribe id => b.unsubscribe id
  | .drop id => b.drop id
  | .close => b.close

abbrev after (b : Bus) (ops : List Op) : Bus := Run.after step b ops

/-- No block reaches anybody any more. -/
def isOver (b : Bus) : Bool := b.closed || b.terminal.isSome

def effect (b : Bus) (id : Nat) (s : Subscription) : Op → Subscription
  | .publish block => if b.isOver then s else s.offer b.capacity block
  | .fail e => if b.terminal.isSome then s else s.halt b.capacity e
  | .subscribe => s
  | .recv i => if i = id then (s.recv b.terminal).2 else s
  | .unsubscribe i => if i = id then s.release else s
  | .drop i => if i = id then { s.release with held := false } else s
  | .close => if b.closed then s else s.release

def Op.error? : Op → Option FeedError
  | .fail e => some e
  | _ => none

def Op.block? : Op → Option Block
  | .publish block => some block
  | _ => none

/-- The subscription that an operation adds. -/
def newcomer (b : Bus) : Op → List Subscription
  | .subscribe => if b.closed then [] else [b.terminal.elim .fresh .halted]
  | _ => []

theorem mapIdx_eq_map {α β : Type} (f : α → β) (l : List α) :
    l.mapIdx (fun _ a => f a) = l.map f := by
  apply List.ext_getElem?
  simp

theorem modify_eq_mapIdx {α : Type} (f : α → α) (id : Nat) (l : List α) :
    l.modify id f = l.mapIdx fun i a => if id = i then f a else a := by
  apply List.ext_getElem?
  intro i
  rw [List.getElem?_modify, List.getElem?_mapIdx]
  cases l[i]? with
  | none => rfl
  | some a => by_cases h : id = i <;> simp [h]

theorem subscriptions_unsubscribe (b : Bus) (id : Nat) :
    (b.unsubscribe id).subscriptions = b.subscriptions.modify id Subscription.release := by
  rw [unsubscribe]
  split
  · rfl
  · rename_i h
    apply List.ext_getElem?
    intro i
    rw [List.getElem?_modify]
    cases hs : b.subscriptions[i]? with
    | none => rfl
    | some s =>
      by_cases hi : id = i
      · subst hi
        have hr : s.registered = false := by simpa [isRegistered, hs] using h
        simp [Subscription.release_of_unregistered hr]
      · simp [hi]

theorem unsubscribe_eq (b : Bus) (id : Nat) : ∃ counts, b.unsubscribe id =
    { b with subscriptions := b.subscriptions.modify id Subscription.release, counts } := by
  have h := subscriptions_unsubscribe b id
  rw [unsubscribe] at h ⊢
  split
  · exact ⟨_, rfl⟩
  · rename_i hn
    rw [if_neg hn] at h
    exact ⟨b.counts, by rw [← h]⟩

theorem recv_snd (b : Bus) (id : Nat) : (b.recv id).2 =
    { b with subscriptions := b.subscriptions.modify id fun s => (s.recv b.terminal).2 } := by
  have h : (b.recv id).2.subscriptions =
      b.subscriptions.modify id fun s => (s.recv b.terminal).2 := by
    apply List.ext_getElem?
    intro i
    rw [List.getElem?_modify]
    rw [recv]
    cases hs : b.subscriptions[id]? with
    | none =>
      by_cases hi : id = i
      · subst hi
        simp [hs]
      · simp [hi]
    | some s =>
      by_cases hi : id = i
      · subst hi
        have hl : id < b.subscriptions.length := (List.getElem?_eq_some_iff.mp hs).1
        rw [hs]
        simp [hl]
      · simp [hi]
  rw [← h]
  rw [recv]
  split <;> rfl

/-- Apart from what is counted, an operation acts on each subscription by itself. -/
theorem step_eq (b : Bus) (op : Op) : ∃ counts, b.step op =
    { b with
      subscriptions := b.subscriptions.mapIdx (fun id s => b.effect id s op) ++ b.newcomer op
      terminal := b.terminal.or op.error?
      closed := b.closed || op = .close
      counts } := by
  obtain ⟨capacity, hpos, subscriptions, terminal, closed, counts⟩ := b
  cases op with
  | publish block =>
    cases h : closed || terminal.isSome with
    | true => exact ⟨counts, by simp [step, publish, effect, isOver, h, newcomer, Op.error?, mapIdx_eq_map]⟩
    | false =>
      simp only [step, publish, effect, isOver, h, Bool.false_eq_true, if_false, newcomer, Op.error?,
        mapIdx_eq_map]
      split
      · exact ⟨_, by simp; rfl⟩
      · exact ⟨_, by simp [report]; rfl⟩
  | fail e =>
    cases terminal with
    | some e' => exact ⟨counts, by simp [step, fail, effect, newcomer, Op.error?, mapIdx_eq_map]⟩
    | none => exact ⟨_, by simp [step, fail, effect, newcomer, Op.error?, mapIdx_eq_map]; rfl⟩
  | subscribe =>
    cases closed with
    | true => exact ⟨counts, by simp [step, subscribe, effect, newcomer, Op.error?, mapIdx_eq_map]⟩
    | false =>
      cases terminal with
      | some e => exact ⟨counts, by simp [step, subscribe, effect, newcomer, Op.error?, mapIdx_eq_map]⟩
      | none =>
        exact ⟨_, by simp [step, subscribe, effect, newcomer, Op.error?, mapIdx_eq_map, report]; rfl⟩
  | recv id =>
    exact ⟨counts, by simp [step, recv_snd, effect, newcomer, Op.error?, modify_eq_mapIdx]⟩
  | unsubscribe id =>
    obtain ⟨counts', h⟩ := unsubscribe_eq ⟨capacity, hpos, subscriptions, terminal, closed, counts⟩ id
    exact ⟨counts', by simp [step, h, effect, newcomer, Op.error?, modify_eq_mapIdx]⟩
  | drop id =>
    obtain ⟨counts', h⟩ := unsubscribe_eq ⟨capacity, hpos, subscriptions, terminal, closed, counts⟩ id
    refine ⟨counts', ?_⟩
    simp only [step, drop, h, effect, newcomer, Op.error?, modify_eq_mapIdx, List.mapIdx_mapIdx]
    have hd : ∀ (i : Nat) (s : Subscription),
        (if id = i then { (if id = i then s.release else s) with held := false }
          else if id = i then s.release else s) =
        if id = i then { s.release with held := false } else s := by
      intro i s
      by_cases hi : id = i <;> simp [hi]
    simp [Function.comp_def, hd]
  | close =>
    cases closed with
    | true => exact ⟨counts, by simp [step, close, effect, newcomer, Op.error?, mapIdx_eq_map]⟩
    | false => exact ⟨_, by simp [step, close, effect, newcomer, Op.error?, mapIdx_eq_map]; rfl⟩

@[simp] theorem capacity_step (b : Bus) (op : Op) : (b.step op).capacity = b.capacity := by
  obtain ⟨counts, h⟩ := b.step_eq op
  rw [h]

@[simp] theorem capacity_after (b : Bus) (ops : List Op) : (b.after ops).capacity = b.capacity :=
  Run.after_induction (P := fun c : Bus => c.capacity = b.capacity) (fun c op hc => by simp [hc]) rfl ops

@[simp] theorem terminal_step (b : Bus) (op : Op) :
    (b.step op).terminal = b.terminal.or op.error? := by
  obtain ⟨counts, h⟩ := b.step_eq op
  rw [h]

@[simp] theorem closed_step (b : Bus) (op : Op) :
    (b.step op).closed = (b.closed || op = .close) := by
  obtain ⟨counts, h⟩ := b.step_eq op
  rw [h]

theorem subscriptions_step (b : Bus) (op : Op) : (b.step op).subscriptions =
    b.subscriptions.mapIdx (fun id s => b.effect id s op) ++ b.newcomer op := by
  obtain ⟨counts, h⟩ := b.step_eq op
  rw [h]

theorem length_step (b : Bus) (op : Op) :
    (b.step op).subscriptions.length = b.subscriptions.length + (b.newcomer op).length := by
  rw [subscriptions_step, List.length_append, List.length_mapIdx]

theorem length_le_after (b : Bus) (ops : List Op) :
    b.subscriptions.length ≤ (b.after ops).subscriptions.length := by
  induction ops generalizing b with
  | nil => exact Nat.le_refl _
  | cons op ops ih =>
    have hs := b.length_step op
    have hle : b.subscriptions.length ≤ (b.step op).subscriptions.length := by omega
    exact Nat.le_trans hle (ih (b.step op))

theorem getElem?_step {b : Bus} {id : Nat} {s : Subscription} (h : b.subscriptions[id]? = some s)
    (op : Op) : (b.step op).subscriptions[id]? = some (b.effect id s op) := by
  have hl : id < b.subscriptions.length := (List.getElem?_eq_some_iff.mp h).1
  rw [subscriptions_step, List.getElem?_append_left (by simpa using hl), List.getElem?_mapIdx, h]
  rfl

/-- A subscription was there before the operation or is the one that the operation adds. -/
theorem getElem?_step_cases {b : Bus} {op : Op} {id : Nat} {t : Subscription}
    (h : (b.step op).subscriptions[id]? = some t) :
    (∃ s, b.subscriptions[id]? = some s ∧ t = b.effect id s op) ∨
      (id = b.subscriptions.length ∧ t ∈ b.newcomer op) := by
  cases hs : b.subscriptions[id]? with
  | some s =>
    rw [getElem?_step hs op] at h
    exact Or.inl ⟨s, rfl, (Option.some.inj h).symm⟩
  | none =>
    have hl : b.subscriptions.length ≤ id := List.getElem?_eq_none_iff.mp hs
    rw [subscriptions_step, List.getElem?_append_right (by simpa using hl)] at h
    have hn : (b.newcomer op).length ≤ 1 := by
      simp only [newcomer]
      split
      · split <;> simp
      · simp
    have hi := (List.getElem?_eq_some_iff.mp h).1
    simp only [List.length_mapIdx] at hi
    exact Or.inr ⟨by omega, List.mem_of_getElem? h⟩

theorem isOver_step (b : Bus) (op : Op) :
    (b.step op).isOver = (b.isOver || op = .close || op.error?.isSome) := by
  simp only [isOver, closed_step, terminal_step, Option.isSome_or]
  cases b.closed <;> cases b.terminal.isSome <;> simp

theorem recv_fst {b : Bus} {id : Nat} {s : Subscription} (h : b.subscriptions[id]? = some s) :
    (b.recv id).1 = (s.recv b.terminal).1 := by
  simp [recv, h]

theorem closeReason_eq {b : Bus} {id : Nat} {s : Subscription} (h : b.subscriptions[id]? = some s) :
    b.closeReason id = s.closeReason := by
  simp [closeReason, h]

theorem registered_effect {b : Bus} {id : Nat} {s : Subscription} {op : Op}
    (h : (b.effect id s op).registered = true) : s.registered = true := by
  cases hr : s.registered with
  | true => rfl
  | false =>
    cases op with
    | publish block => simp [effect, Subscription.offer_of_unregistered hr, hr] at h
    | fail e => simp [effect, Subscription.halt_of_unregistered hr, hr] at h
    | subscribe => simp [effect, hr] at h
    | recv i =>
      simp only [effect] at h
      split at h <;> simp [hr] at h
    | unsubscribe i => simp [effect, Subscription.release_of_unregistered hr, hr] at h
    | drop i =>
      simp only [effect] at h
      split at h <;> simp [hr] at h
    | close => simp [effect, Subscription.release_of_unregistered hr, hr] at h

/-- The one subscription that an operation is about. -/
def Op.subject? : Op → Option Nat
  | .recv id => some id
  | .unsubscribe id => some id
  | .drop id => some id
  | _ => none

theorem effect_of_foreign {id : Nat} {op : Op} (h : op.subject? ≠ some id) (b : Bus)
    {s : Subscription} (hr : s.registered = false) : b.effect id s op = s := by
  cases op with
  | publish block => simp [effect, Subscription.offer_of_unregistered hr]
  | fail e => simp [effect, Subscription.halt_of_unregistered hr]
  | close => simp [effect, Subscription.release_of_unregistered hr]
  | subscribe => rfl
  | _ =>
    simp only [Op.subject?, ne_eq, Option.some.injEq] at h
    simp [effect, h]

theorem getElem?_after_of_foreign {b : Bus} {id : Nat} {s : Subscription}
    (hs : b.subscriptions[id]? = some s) (hr : s.registered = false) {ops : List Op}
    (h : ∀ op ∈ ops, op.subject? ≠ some id) : (b.after ops).subscriptions[id]? = some s := by
  induction ops generalizing b with
  | nil => exact hs
  | cons op ops ih =>
    have he := getElem?_step hs op
    rw [effect_of_foreign (h op List.mem_cons_self) b hr] at he
    exact ih he fun op' hop => h op' (List.mem_cons_of_mem _ hop)

theorem getElem?_after {b : Bus} {id : Nat} {s : Subscription} (hs : b.subscriptions[id]? = some s)
    (ops : List Op) : ∃ t, (b.after ops).subscriptions[id]? = some t := by
  induction ops generalizing b s with
  | nil => exact ⟨s, hs⟩
  | cons op ops ih => exact ih (getElem?_step hs op)

theorem registered_of_after {b : Bus} {id : Nat} {s t : Subscription}
    (hs : b.subscriptions[id]? = some s) {ops : List Op}
    (ht : (b.after ops).subscriptions[id]? = some t) (hr : t.registered = true) :
    s.registered = true := by
  induction ops generalizing b s with
  | nil =>
    rw [after, Run.after_nil, hs] at ht
    cases ht
    exact hr
  | cons op ops ih => exact registered_effect (ih (getElem?_step hs op) ht)

/-- What is true of every subscription that is registered. -/
def Sound (b : Bus) : Prop :=
  ∀ (id : Nat) (s : Subscription), b.subscriptions[id]? = some s → s.registered = true →
    s.Live b.capacity ∧ b.isOver = false

theorem sound_new (capacity : Nat) : (new capacity).Sound := by
  intro id s (h : ([] : List Subscription)[id]? = some s)
  simp at h

theorem Sound.effect {b : Bus} (h : b.Sound) {id : Nat} {s : Subscription}
    (hs : b.subscriptions[id]? = some s) {op : Op} (hr : (b.effect id s op).registered = true) :
    (b.effect id s op).Live b.capacity ∧ op ≠ .close ∧ op.error? = none := by
  have hreg := registered_effect hr
  obtain ⟨hl, ho⟩ := h id s hs hreg
  have hover := ho
  simp only [isOver, Bool.or_eq_false_iff] at hover
  obtain ⟨hc, ht⟩ := hover
  cases op with
  | publish block =>
    simp only [Bus.effect, ho, Bool.false_eq_true, if_false] at hr ⊢
    obtain ⟨he, hlt⟩ := hl.registered_offer hreg hr
    rw [he]
    exact ⟨hl.append block hlt, Op.noConfusion, rfl⟩
  | fail e => simp [Bus.effect, ht] at hr
  | subscribe => exact ⟨hl, Op.noConfusion, rfl⟩
  | recv i =>
    refine ⟨?_, Op.noConfusion, rfl⟩
    simp only [Bus.effect]
    split
    · exact hl.recv hreg b.terminal
    · exact hl
  | unsubscribe i =>
    by_cases hi : i = id
    · simp [Bus.effect, hi] at hr
    · simpa [Bus.effect, hi, Op.error?] using hl
  | drop i =>
    by_cases hi : i = id
    · simp [Bus.effect, hi] at hr
    · simpa [Bus.effect, hi, Op.error?] using hl
  | close => simp [Bus.effect, hc] at hr

theorem Sound.step {b : Bus} (h : b.Sound) (op : Op) : (b.step op).Sound := by
  intro id t ht hr
  rw [capacity_step, isOver_step]
  rcases getElem?_step_cases ht with ⟨s, hs, rfl⟩ | ⟨_, hn⟩
  · obtain ⟨hl, hc, he⟩ := h.effect hs hr
    refine ⟨hl, ?_⟩
    simp [(h id s hs (registered_effect hr)).2, hc, he]
  · cases op with
    | subscribe =>
      cases hc : b.closed with
      | true => simp [newcomer, hc] at hn
      | false =>
        cases hb : b.terminal with
        | none =>
          simp only [newcomer, hc, hb, Bool.false_eq_true, if_false, List.mem_singleton] at hn
          subst hn
          exact ⟨Subscription.fresh_live _, by simp [isOver, hc, hb, Op.error?]⟩
        | some e =>
          simp only [newcomer, hc, hb, Bool.false_eq_true, if_false, List.mem_singleton] at hn
          subst hn
          simp [Subscription.halted] at hr
    | _ => simp [newcomer] at hn

theorem Sound.after {b : Bus} (h : b.Sound) (ops : List Op) : (b.after ops).Sound :=
  Run.after_induction (fun _ op hb => hb.step op) h ops

/-- As long as the feed goes on, a subscription that nobody lets go of stays registered, or it is
evicted. -/
theorem Sound.kept_step {b : Bus} (h : b.Sound) {id : Nat} {s : Subscription}
    (hs : b.subscriptions[id]? = some s) (hr : s.registered = true) {op : Op}
    (hf : op.subject? ≠ some id) (ho : (b.step op).isOver = false) :
    (b.effect id s op).registered = true ∨
      (b.effect id s op).registered = false ∧ (b.effect id s op).evicted = true := by
  rw [isOver_step] at ho
  obtain ⟨hl, hover⟩ := h id s hs hr
  cases op with
  | publish block =>
    simp only [Bus.effect, hover, Bool.false_eq_true, if_false, Subscription.offer_of_live hl hr]
    split
    · exact Or.inr ⟨rfl, rfl⟩
    · exact Or.inl hr
  | fail e => simp [Op.error?] at ho
  | close => simp at ho
  | subscribe => exact Or.inl hr
  | _ =>
    simp only [Op.subject?, ne_eq, Option.some.injEq] at hf
    simp [Bus.effect, hf, hr]

theorem isOver_of_after {b : Bus} {ops : List Op} (h : (b.after ops).isOver = false) :
    b.isOver = false := by
  induction ops generalizing b with
  | nil => exact h
  | cons op ops ih =>
    have hh : (b.step op).isOver = false := ih h
    rw [isOver_step] at hh
    simp only [Bool.or_eq_false_iff] at hh
    exact hh.1.1

theorem Sound.kept_after {b : Bus} (h : b.Sound) {id : Nat} {s t : Subscription}
    (hs : b.subscriptions[id]? = some s) (hr : s.registered = true) {ops : List Op}
    (hf : ∀ op ∈ ops, op.subject? ≠ some id) (ho : (b.after ops).isOver = false)
    (ht : (b.after ops).subscriptions[id]? = some t) :
    t.registered = true ∨ t.registered = false ∧ t.evicted = true := by
  induction ops generalizing b s with
  | nil =>
    rw [Bus.after, Run.after_nil, hs] at ht
    cases ht
    exact Or.inl hr
  | cons op ops ih =>
    have he := getElem?_step hs op
    have hrest : ∀ op' ∈ ops, op'.subject? ≠ some id := fun op' hop => hf op' (List.mem_cons_of_mem _ hop)
    rcases h.kept_step hs hr (hf op List.mem_cons_self) (isOver_of_after ho) with hreg | hev
    · exact ih (h.step op) he hreg hrest ho ht
    · have hlast := getElem?_after_of_foreign he hev.1 hrest
      rw [Bus.after, Run.after_cons, hlast] at ht
      cases ht
      exact Or.inr hev

end Bus

end BlockFeed
