import BlockFeed.Proofs.Publisher.Account

/-! The slots of the publisher's queue. The batches in it and the waiters that hold a slot never
outnumber its length, no waiter stands in it twice, and one that has gone never comes back. -/

namespace BlockFeed

namespace Fifo

variable {α : Type} {f g : Fifo α} {next next' : Nat}

/-- All who wait, those that hold a slot in front. -/
def waiters (f : Fifo α) : List Nat := f.granted ++ f.waiting

/-- `next` is the number of the waiter that comes next. -/
structure Sound (f : Fifo α) (next : Nat) : Prop where
  room : f.used ≤ f.capacity
  distinct : f.waiters.Nodup
  fresh : ∀ id ∈ f.waiters, id < next

/-- The waiter was here, and is here no more. -/
def Gone (f : Fifo α) (next id : Nat) : Prop := id < next ∧ id ∉ f.waiters

/-- What becomes of a queue and of the number of the next waiter when one thing is done with it. -/
inductive Step (f : Fifo α) (next : Nat) : Fifo α → Nat → Prop where
  | stay : Step f next f next
  | push (a : α) (h : f.used < f.capacity) : Step f next (f.push a) next
  | enter : Step f next (f.enter next) (next + 1)
  | fill (id : Nat) (a : α) (h : id ∈ f.granted) : Step f next (f.fill id a) next
  | leave (id : Nat) : Step f next (f.leave id) next
  | pop {a : α} {g : Fifo α} (h : f.pop? = some (a, g)) : Step f next g next
  | close : Step f next f.close next
  | discard : Step f next f.discard next

@[simp] theorem capacity_grant (f : Fifo α) : f.grant.capacity = f.capacity := by
  rw [grant]
  split <;> rfl

@[simp] theorem closed_grant (f : Fifo α) : f.grant.closed = f.closed := by
  rw [grant]
  split <;> rfl

@[simp] theorem capacity_leave (f : Fifo α) (id : Nat) : (f.leave id).capacity = f.capacity := by
  rw [leave]
  split <;> simp

@[simp] theorem closed_leave (f : Fifo α) (id : Nat) : (f.leave id).closed = f.closed := by
  rw [leave]
  split <;> simp

/-- A slot that is given away changes hands, but nobody comes or goes. -/
@[simp] theorem waiters_grant (f : Fifo α) : f.grant.waiters = f.waiters := by
  rw [grant]
  split
  · rename_i id rest hw
    simp [waiters, hw]
  · rfl

theorem used_grant_le (f : Fifo α) : f.grant.used ≤ f.used + 1 := by
  rw [grant]
  split
  · simp only [used, List.length_append, List.length_singleton]
    omega
  · exact Nat.le_succ _

theorem pop?_eq_some {a : α} (h : f.pop? = some (a, g)) : ∃ rest, f.queue = a :: rest ∧
    g = { f with queue := rest }.grant := by
  rw [pop?] at h
  split at h
  · rename_i a' rest hq
    simp only [Option.some.injEq, Prod.mk.injEq] at h
    obtain ⟨rfl, rfl⟩ := h
    exact ⟨rest, hq, rfl⟩
  · cases h

theorem used_pop_le {a : α} (h : f.pop? = some (a, g)) : g.used ≤ f.used := by
  obtain ⟨rest, hq, rfl⟩ := pop?_eq_some h
  have hgrant := used_grant_le { f with queue := rest }
  simp only [used, hq, List.length_cons] at hgrant ⊢
  omega

theorem used_fill {id : Nat} (h : id ∈ f.granted) (a : α) : (f.fill id a).used = f.used := by
  have hpos := List.length_pos_of_mem h
  simp only [used, fill, List.length_append, List.length_singleton, List.length_erase_of_mem h]
  omega

theorem used_leave_le (f : Fifo α) (id : Nat) : (f.leave id).used ≤ f.used := by
  rw [leave]
  split
  · rename_i h
    have hpos := List.length_pos_of_mem h
    have hgrant := used_grant_le { f with granted := f.granted.erase id }
    simp only [used, List.length_erase_of_mem h] at hgrant ⊢
    omega
  · exact Nat.le_refl _

theorem waiters_leave (f : Fifo α) (id : Nat) : (f.leave id).waiters.Sublist f.waiters := by
  rw [leave]
  split
  · rw [waiters_grant]
    exact List.Sublist.append_right List.erase_sublist _
  · exact List.Sublist.append_left List.erase_sublist _

theorem Step.capacity (h : f.Step next g next') : g.capacity = f.capacity := by
  cases h with
  | leave id => exact capacity_leave f id
  | pop h =>
    obtain ⟨rest, -, rfl⟩ := pop?_eq_some h
    exact capacity_grant _
  | _ => rfl

theorem Step.used (h : f.Step next g next') (hroom : f.used ≤ f.capacity) :
    g.used ≤ f.capacity := by
  cases h with
  | push a h =>
    simp only [Fifo.used, Fifo.push, List.length_append, List.length_singleton] at h ⊢
    omega
  | fill id a h => exact Nat.le_trans (Nat.le_of_eq (used_fill h a)) hroom
  | leave id => exact Nat.le_trans (used_leave_le f id) hroom
  | pop h => exact Nat.le_trans (used_pop_le h) hroom
  | discard =>
    simp only [Fifo.used, Fifo.discard, Fifo.close, List.length_nil] at hroom ⊢
    omega
  | _ => exact hroom

/-- The only one that can come is the next waiter. -/
theorem Step.waiters (h : f.Step next g next') : g.waiters.Sublist f.waiters ∧ next' = next ∨
    g.waiters = f.waiters ++ [next] ∧ next' = next + 1 := by
  cases h with
  | enter => exact .inr ⟨(List.append_assoc _ _ _).symm, rfl⟩
  | fill id a h => exact .inl ⟨List.Sublist.append_right List.erase_sublist _, rfl⟩
  | leave id => exact .inl ⟨waiters_leave f id, rfl⟩
  | pop h =>
    obtain ⟨rest, -, rfl⟩ := pop?_eq_some h
    rw [waiters_grant]
    exact .inl ⟨List.Sublist.refl _, rfl⟩
  | close => exact .inl ⟨List.Sublist.append_left (List.nil_sublist _) _, rfl⟩
  | discard => exact .inl ⟨List.Sublist.append_left (List.nil_sublist _) _, rfl⟩
  | _ => exact .inl ⟨List.Sublist.refl _, rfl⟩

theorem sound_new (capacity : Nat) : (new capacity : Fifo α).Sound 0 :=
  ⟨Nat.zero_le _, List.nodup_nil, nofun⟩

theorem Sound.step (hs : f.Sound next) (h : f.Step next g next') : g.Sound next' := by
  have hroom : g.used ≤ g.capacity := h.capacity ▸ h.used hs.room
  rcases h.waiters with ⟨hsub, rfl⟩ | ⟨hnew, rfl⟩
  · exact ⟨hroom, hsub.nodup hs.distinct, fun id hid => hs.fresh id (hsub.subset hid)⟩
  · have hnot : next ∉ f.waiters := fun hid => Nat.lt_irrefl _ (hs.fresh next hid)
    refine ⟨hroom, ?_, ?_⟩
    · rw [hnew, List.nodup_append]
      refine ⟨hs.distinct, List.pairwise_singleton _ next, ?_⟩
      rintro id hid _ hnext rfl
      exact hnot (List.mem_singleton.mp hnext ▸ hid)
    · intro id hid
      rw [hnew, List.mem_append, List.mem_singleton] at hid
      rcases hid with hid | rfl
      · exact Nat.lt_succ_of_lt (hs.fresh id hid)
      · exact Nat.lt_succ_self id

theorem Gone.step {id : Nat} (hg : f.Gone next id) (h : f.Step next g next') : g.Gone next' id := by
  obtain ⟨hlt, hnot⟩ := hg
  rcases h.waiters with ⟨hsub, rfl⟩ | ⟨hnew, rfl⟩
  · exact ⟨hlt, fun hid => hnot (hsub.subset hid)⟩
  · refine ⟨Nat.lt_succ_of_lt hlt, fun hid => ?_⟩
    rw [hnew, List.mem_append, List.mem_singleton] at hid
    rcases hid with hid | rfl
    · exact hnot hid
    · exact Nat.lt_irrefl _ hlt

/-- Who fills its slot gives it up. -/
theorem Sound.gone_fill {id : Nat} (hs : f.Sound next) (h : id ∈ f.granted) (a : α) :
    (f.fill id a).Gone next id := by
  have hmem : id ∈ f.waiters := List.mem_append_left _ h
  have hdistinct := hs.distinct
  rw [waiters, List.nodup_append] at hdistinct
  obtain ⟨hgranted, -, hapart⟩ := hdistinct
  refine ⟨hs.fresh id hmem, ?_⟩
  rw [waiters, List.mem_append, not_or]
  exact ⟨hgranted.not_mem_erase, fun hid => hapart id h id hid rfl⟩

end Fifo

namespace Publisher

@[simp] theorem fifo_halt (p : Publisher) (e : FeedError) : (p.halt e).1.fifo = p.fifo := by
  rw [halt]
  split <;> rfl

@[simp] theorem nextWaiter_halt (p : Publisher) (e : FeedError) :
    (p.halt e).1.nextWaiter = p.nextWaiter := by
  rw [halt]
  split <;> rfl

@[simp] theorem fifo_process (p : Publisher) (batch : Batch) : (p.process batch).1.fifo = p.fifo := by
  rw [process]
  cases Block.ofBatch batch with
  | ok block =>
    simp only [publish]
    split <;> rfl
  | error source => exact fifo_halt _ _

@[simp] theorem nextWaiter_process (p : Publisher) (batch : Batch) :
    (p.process batch).1.nextWaiter = p.nextWaiter := by
  rw [process]
  cases Block.ofBatch batch with
  | ok block =>
    simp only [publish]
    split <;> rfl
  | error source => exact nextWaiter_halt _ _

theorem used_lt_of_not_full {p : Publisher} (h : ¬ p.fifo.isFull = true) :
    p.fifo.used < p.fifo.capacity := by
  simpa [Fifo.isFull] using h

theorem fifo_deliver (p : Publisher) :
    p.fifo.Step p.nextWaiter p.deliver.1.fifo p.deliver.1.nextWaiter := by
  rw [deliver]
  split
  · split
    · split
      · exact .discard
      · exact .close
    · split
      · rename_i batch fifo hp
        simpa using Fifo.Step.pop hp
      · exact .stay
  · split
    · exact .discard
    · split
      · rename_i batch fifo hp
        simpa using Fifo.Step.pop hp
      · split
        · exact .discard
        · exact .stay
  · exact .stay

theorem fifo_step (p : Publisher) (op : Op) :
    p.fifo.Step p.nextWaiter (p.step op).fifo (p.step op).nextWaiter := by
  cases op with
  | run =>
    simp only [step]
    rcases p.run_cases with ⟨e, h⟩ | ⟨-, -, h⟩
    · rw [h]
      exact .stay
    · rw [h]
      exact .stay
  | stop =>
    simp only [step, Publisher.stop]
    split <;> exact .stay
  | submit batch =>
    simp only [step, submit]
    split
    · exact .stay
    · split
      · simpa using Fifo.Step.stay
      · exact .push batch (used_lt_of_not_full ‹_›)
  | submitWait batch =>
    simp only [step, submitWait]
    split
    · exact .stay
    · split
      · exact .enter
      · exact .push batch (used_lt_of_not_full ‹_›)
  | resume w =>
    simp only [step, resume]
    split
    · exact .leave w.id
    · split
      · split
        · exact .fill w.id w.batch ‹_›
        · exact .leave w.id
      · exact .stay
  | abandon w => exact .leave w.id
  | deliver => exact fifo_deliver p

def Sound (p : Publisher) : Prop := p.fifo.Sound p.nextWaiter

theorem sound_new (capacity : Nat) : (new capacity).Sound := Fifo.sound_new capacity

theorem Sound.after {p : Publisher} (h : p.Sound) (ops : List Op) : (p.after ops).Sound :=
  Run.after_induction (P := Sound) (fun q op hq => Fifo.Sound.step hq (fifo_step q op)) h ops

def Gone (p : Publisher) (id : Nat) : Prop := p.fifo.Gone p.nextWaiter id

theorem Gone.step {p : Publisher} {id : Nat} (h : p.Gone id) (op : Op) : (p.step op).Gone id :=
  Fifo.Gone.step h (fifo_step p op)

theorem capacity_after (p : Publisher) (ops : List Op) :
    (p.after ops).fifo.capacity = p.fifo.capacity :=
  Run.after_induction (P := fun q : Publisher => q.fifo.capacity = p.fifo.capacity)
    (fun q op hq => (fifo_step q op).capacity.trans hq) rfl ops

end Publisher

end BlockFeed
