import BlockFeed.Proofs.Block
import BlockFeed.Proofs.Service.Turn

/-! What one client has read, against what its subscription has yielded. All that has been yielded is
read, or waits in the buffer or for room in it, and nothing follows the end of the subscription. -/

namespace BlockFeed

def Received.news : Received → List Received
  | .pending => []
  | r => [r]

namespace Subscription

theorem recv_backlog_subset (terminal : Option FeedError) (t : Subscription) :
    ∀ b ∈ (t.recv terminal).2.backlog, b ∈ t.backlog := by
  intro b hb
  rw [← backlog_recv terminal t]
  exact List.mem_append_right _ hb

theorem mem_backlog_of_recv {terminal : Option FeedError} {t : Subscription} {b : Block}
    (h : (t.recv terminal).1 = .block b) : b ∈ t.backlog := by
  rw [← backlog_recv terminal t, h]
  exact List.mem_append_left _ (List.mem_singleton.mpr rfl)

theorem registered_of_recv_ended {terminal : Option FeedError} {t : Subscription}
    (h : (t.recv terminal).1 = .ended) : t.registered = false := by
  cases hr : t.registered with
  | false => rfl
  | true =>
    simp only [recv] at h
    split at h
    · cases h
    · cases h
    · simp [hr] at h

end Subscription

namespace Bus

theorem effect_of_unread {id : Nat} {op : Op} (h : op ≠ .recv id ∧ op ≠ .drop id) (b : Bus)
    (t : Subscription) :
    (t.registered = false → b.effect id t op = t) ∧
      ∀ block ∈ (b.effect id t op).backlog, block ∈ t.backlog ∨ op = .publish block := by
  cases op with
  | publish block =>
    refine ⟨fun hr => by simp [effect, Subscription.offer_of_unregistered hr], ?_⟩
    intro block' hb
    simp only [effect] at hb
    split at hb
    · exact Or.inl hb
    · rw [Subscription.offer] at hb
      split at hb
      · exact Or.inl hb
      · split at hb
        · exact Or.inl hb
        · split at hb
          · exact Or.inl hb
          · simp only [Subscription.backlog, List.filterMap_append, List.mem_append] at hb
            rcases hb with hb | hb
            · exact Or.inl hb
            · exact Or.inr (by simpa [FeedMessage.block?, eq_comm] using hb)
  | fail e =>
    refine ⟨fun hr => by simp [effect, Subscription.halt_of_unregistered hr], ?_⟩
    intro block hb
    simp only [effect] at hb
    split at hb
    · exact Or.inl hb
    · exact Or.inl (by simpa using hb)
  | subscribe => exact ⟨fun _ => rfl, fun _ => Or.inl⟩
  | recv i =>
    have hi : i ≠ id := fun he => h.1 (by rw [he])
    refine ⟨fun _ => by simp [effect, hi], fun block hb => Or.inl ?_⟩
    simpa [effect, hi] using hb
  | drop i =>
    have hi : i ≠ id := fun he => h.2 (by rw [he])
    refine ⟨fun _ => by simp [effect, hi], fun block hb => Or.inl ?_⟩
    simpa [effect, hi] using hb
  | unsubscribe i =>
    refine ⟨fun hr => by simp [effect, Subscription.release_of_unregistered hr], ?_⟩
    intro block hb
    simp only [effect] at hb
    split at hb <;> exact Or.inl hb
  | close =>
    refine ⟨fun hr => by simp [effect, Subscription.release_of_unregistered hr], ?_⟩
    intro block hb
    simp only [effect] at hb
    split at hb <;> exact Or.inl hb

/-- A subscription that nobody reads or drops only gains blocks, and stays as it is once it has
ended. -/
theorem after_of_unread {b : Bus} {id : Nat} {t : Subscription} (ht : b.subscriptions[id]? = some t)
    {ops : List Op} (h : ∀ o ∈ ops, o ≠ .recv id ∧ o ≠ .drop id) :
    ∃ t', (b.after ops).subscriptions[id]? = some t' ∧ (t.registered = false → t' = t) ∧
      ∀ block ∈ t'.backlog, block ∈ t.backlog ∨ .publish block ∈ ops := by
  induction ops generalizing b t with
  | nil => exact ⟨t, ht, fun _ => rfl, fun _ => Or.inl⟩
  | cons op ops ih =>
    obtain ⟨hsame, hgain⟩ := effect_of_unread (h op List.mem_cons_self) b t
    obtain ⟨t', ht', hsame', hgain'⟩ := ih (getElem?_step ht op)
      fun o ho => h o (List.mem_cons_of_mem _ ho)
    refine ⟨t', ht', ?_, ?_⟩
    · intro hr
      have he := hsame hr
      rw [he] at hsame'
      exact hsame' hr
    · intro block hb
      rcases hgain' block hb with hb | hb
      · rcases hgain block hb with hb | rfl
        · exact Or.inl hb
        · exact Or.inr List.mem_cons_self
      · exact Or.inr (List.mem_cons_of_mem _ hb)

end Bus

namespace Session

/-- What the client is told of something its subscription yields. -/
def itemOf (f : StreamFilter) (reason : CloseReason) (r : Received) : Option Item :=
  (Service.phaseFor f reason r).item?

/-- The task still takes from the subscription. -/
def Going (s : Session) : Prop := s.phase = .receiving ∨ ∃ r, s.phase = .sending r

/-- What a subscription has yielded: blocks, and the end once it has come. -/
def Yielded (s : Session) (t : Subscription) (received : List Received) : Prop :=
  ∃ blocks : List Block, (∀ b ∈ blocks, b.Paired) ∧
    (s.Going ∧ received = blocks.map .block ∨
      ¬s.Going ∧ ((∃ e, received = blocks.map .block ++ [.terminal e]) ∨
        received = blocks.map .block ++ [.ended] ∧ t.registered = false))

/-- Where the stream of a client stands. -/
structure Told (s : Session) (t : Subscription) (received : List Received)
    (heard : List Service.Read) : Prop where
  connected : s.connected = true
  paired : ∀ b ∈ t.backlog, b.Paired
  yielded : s.Yielded t received
  heard : ∃ ends, heard ++ s.unread.map .item =
      (received.filterMap (itemOf s.filter t.closeReason)).map .item ++ List.replicate ends .ended ∧
    (ends ≠ 0 → s.phase = .done ∧ s.buffer = [])

theorem filterMap_news (f : StreamFilter) (reason : CloseReason) (r : Received) :
    r.news.filterMap (itemOf f reason) = (itemOf f reason r).toList := by
  cases r with
  | pending => rfl
  | block b => cases hi : itemOf f reason (.block b) <;> simp [Received.news, hi]
  | terminal e => rfl
  | ended => rfl

/-- The reason only matters once the queue has ended. -/
theorem filterMap_itemOf {received : List Received} (h : .ended ∉ received) (f : StreamFilter)
    (reason reason' : CloseReason) :
    received.filterMap (itemOf f reason) = received.filterMap (itemOf f reason') := by
  apply List.filterMap_congr
  intro r hr
  cases r with
  | ended => exact absurd hr h
  | _ => rfl

theorem Yielded.not_mem_ended {s : Session} {t : Subscription} {received : List Received}
    (h : s.Yielded t received) (hr : t.registered = true) : .ended ∉ received := by
  obtain ⟨blocks, -, ⟨-, rfl⟩ | ⟨-, ⟨e, rfl⟩ | ⟨-, hr'⟩⟩⟩ := h
  · simp
  · simp
  · rw [hr] at hr'
    cases hr'

variable {capacity : Nat} {terminal : Option FeedError} {s s' : Session} {t t' : Subscription}
  {received : List Received} {heard : List Service.Read}

/-- Before the end there is no end to be told. -/
theorem Told.heard_unread (h : s.Told t received heard) (hp : s.phase ≠ .done) :
    heard ++ s.unread.map .item =
      (received.filterMap (itemOf s.filter t.closeReason)).map .item := by
  obtain ⟨ends, heq, hends⟩ := h.heard
  have hzero : ends = 0 := by
    by_contra hne
    exact hp (hends hne).1
  rw [heq, hzero, List.replicate_zero, List.append_nil]

theorem Told.receive (h : s.Told t received heard) (hp : s.phase = .receiving) :
    ({ s with phase := Service.phaseFor s.filter t.closeReason (t.recv terminal).1 } : Session).Told
      (t.recv terminal).2 (received ++ (t.recv terminal).1.news) heard where
  connected := h.connected
  paired b hb := h.paired b (t.recv_backlog_subset terminal b hb)
  yielded := by
    obtain ⟨blocks, hblocks, ⟨-, rfl⟩ | ⟨hnot, -⟩⟩ := h.yielded
    · cases hr : (t.recv terminal).1 with
      | pending => exact ⟨blocks, hblocks, Or.inl ⟨Or.inl rfl, List.append_nil _⟩⟩
      | block b =>
        have hb : b.Paired := h.paired b (Subscription.mem_backlog_of_recv hr)
        obtain ⟨selection, hs, -⟩ := hb.select_ok s.filter
        refine ⟨blocks ++ [b], ?_, Or.inl ⟨Or.inr ⟨.ofSelection selection, ?_⟩, ?_⟩⟩
        · intro b' hb'
          rcases List.mem_append.mp hb' with hb' | hb'
          · exact hblocks b' hb'
          · rwa [List.mem_singleton.mp hb']
        · simp [Service.phaseFor, hs]
        · rw [List.map_append]
          rfl
      | terminal e =>
        refine ⟨blocks, hblocks, Or.inr ⟨?_, Or.inl ⟨e, rfl⟩⟩⟩
        rintro (hg | ⟨r, hg⟩) <;> cases hg
      | ended =>
        refine ⟨blocks, hblocks, Or.inr ⟨?_, Or.inr ⟨rfl, ?_⟩⟩⟩
        · rintro (hg | ⟨r, hg⟩) <;> cases hg
        · rw [Subscription.registered_recv]
          exact Subscription.registered_of_recv_ended hr
    · exact absurd (Or.inl hp) hnot
  heard := by
    have heq := h.heard_unread (by simp [hp])
    have hreason : (t.recv terminal).2.closeReason = t.closeReason := by
      simp [Subscription.closeReason]
    refine ⟨0, ?_, fun hne => absurd rfl hne⟩
    simp only [unread, hp, Phase.item?, Option.toList_none, List.append_nil] at heq
    rw [hreason, List.filterMap_append, filterMap_news, List.map_append, ← heq, List.replicate_zero,
      List.append_nil, List.append_assoc, ← List.map_append]
    rfl

theorem Told.turn (h : s.Told t received heard) (hturn : s.Turn capacity terminal t s' t') :
    s'.Told t' (received ++ if s.phase = .receiving then (t.recv terminal).1.news else []) heard := by
  obtain ⟨blocks, hblocks, hcase⟩ := h.yielded
  cases hturn with
  | receive hp =>
    rw [if_pos hp]
    exact h.receive hp
  | send r hp hroom =>
    have heq := h.heard_unread (by simp [hp])
    rw [if_neg (by simp [hp]), List.append_nil]
    refine ⟨h.connected, h.paired, ⟨blocks, hblocks, ?_⟩, 0, ?_, fun hne => absurd rfl hne⟩
    · exact hcase.imp (fun hg => ⟨Or.inl rfl, hg.2⟩) fun hn => absurd (Or.inr ⟨r, hp⟩) hn.1
    · simpa [unread, hp, Phase.item?] using heq
  | close status hp hroom =>
    have heq := h.heard_unread (by simp [hp])
    rw [if_neg (by simp [hp]), List.append_nil]
    have hstop : ¬s.Going := by
      rintro (hg | ⟨r, hg⟩) <;> rw [hp] at hg <;> cases hg
    have hdone : ¬({ s with buffer := s.buffer ++ [.error status], phase := .done } : Session).Going := by
      rintro (hg | ⟨r, hg⟩) <;> cases hg
    refine ⟨h.connected, h.paired, ⟨blocks, hblocks, ?_⟩, 0, ?_, fun hne => absurd rfl hne⟩
    · rcases hcase with ⟨hg, -⟩ | ⟨-, hend⟩
      · exact absurd hg hstop
      · exact Or.inr ⟨hdone, hend.imp_right fun hr => ⟨hr.1, rfl⟩⟩
    · change _ = (received.filterMap (itemOf s.filter t.closeReason)).map Service.Read.item ++ _
      simpa [unread, hp, Phase.item?] using heq
  | wait hp hfull =>
    rw [if_neg hp, List.append_nil]
    exact h

theorem Told.read (h : s.Told t received heard) {item : Item} {rest : List Item}
    (hb : s.buffer = item :: rest) :
    ({ s with buffer := rest } : Session).Told t received (heard ++ [.item item]) where
  connected := h.connected
  paired := h.paired
  yielded := h.yielded
  heard := by
    obtain ⟨ends, heq, hends⟩ := h.heard
    refine ⟨ends, ?_, fun hne => ?_⟩
    · rw [← heq, List.append_assoc]
      simp [unread, hb]
    · have hnil := (hends hne).2
      rw [hb] at hnil
      cases hnil

theorem Told.idle (h : s.Told t received heard) (hb : s.buffer = []) :
    s.Told t received (heard ++ if s.phase = .done then [.ended] else []) := by
  by_cases hd : s.phase = .done
  · obtain ⟨ends, heq, -⟩ := h.heard
    refine ⟨h.connected, h.paired, h.yielded, ends + 1, ?_, fun _ => ⟨hd, hb⟩⟩
    have hnone : s.unread = [] := by simp [unread, hb, hd, Phase.item?]
    rw [hnone, List.map_nil, List.append_nil] at heq
    rw [if_pos hd, heq, hnone, List.map_nil, List.append_nil, List.replicate_succ', List.append_assoc]
  · rwa [if_neg hd, List.append_nil]

/-- Others queue blocks for the subscription, or end it. -/
theorem Told.other (h : s.Told t received heard) (hsame : t.registered = false → t' = t)
    (hpaired : ∀ b ∈ t'.backlog, b ∈ t.backlog ∨ b.Paired) : s.Told t' received heard := by
  cases hr : t.registered with
  | false => rwa [hsame hr]
  | true =>
    have hno := h.yielded.not_mem_ended hr
    obtain ⟨blocks, hblocks, hcase⟩ := h.yielded
    refine ⟨h.connected, fun b hb => (hpaired b hb).elim (h.paired b) id, ⟨blocks, hblocks, ?_⟩, ?_⟩
    · refine hcase.imp_right fun hn => ⟨hn.1, hn.2.imp_right fun hend => ?_⟩
      rw [hr] at hend
      exact absurd hend.2 Bool.noConfusion
    · rw [filterMap_itemOf hno s.filter t'.closeReason t.closeReason]
      exact h.heard

end Session

end BlockFeed
