import BlockFeed.Proofs.Service.Ending

/-! The course of a stream. Its subscription comes off the register once, and the task that reads it
ends once: not before the subscription is off the register, unless the client is gone. -/

namespace BlockFeed

/-- What is noted of a subscription. -/
inductive Mark where
  | exit (x : Bus.Exit)
  | ending (e : Session.Ending)
  deriving Repr, DecidableEq

def Mark.reason? : Mark → Option DropReason
  | .exit x => x.reason?
  | .ending e => e.reason?

namespace Session

/-- How far a stream is, and what has been noted of it. -/
inductive Course (s : Session) (t : Subscription) : List Mark → Prop where
  | going (hr : t.registered = true) (hs : s.Going) : Course s t []
  | cut (x : Bus.Exit) (hx : x ≠ .dropped) (hr : t.registered = false) (hs : s.phase ≠ .done) :
      Course s t [.exit x]
  | done (x : Bus.Exit) (e : Ending) (hx : x = .dropped → e = .gone) (hr : t.registered = false)
      (hs : s.phase = .done) : Course s t [.exit x, .ending e]

variable {s s' : Session} {t t' : Subscription} {marks : List Mark}

theorem Going.ne_done (h : s.Going) : s.phase ≠ .done := by
  rcases h with h | ⟨r, h⟩ <;> simp [h]

theorem Going.ending (h : s.Going) : s.phase.ending = .gone := by
  rcases h with h | ⟨r, h⟩ <;> rw [h] <;> rfl

/-- The task goes on, and the subscription stays where it is or is taken off the register. -/
theorem Course.undropped (h : s.Course t marks) {exits : List Bus.Exit}
    (hbus : t'.registered = t.registered ∧ exits = [] ∨ t.registered = true ∧ t'.registered = false ∧
      ∃ x, x ≠ .dropped ∧ exits = [x])
    (hgoing : t'.registered = true → s.Going → s'.Going)
    (hdone : s'.phase = .done ↔ s.phase = .done) : s'.Course t' (marks ++ exits.map .exit) := by
  rcases hbus with ⟨hsame, rfl⟩ | ⟨hr, hr', x, hx, rfl⟩
  · rw [List.map_nil, List.append_nil]
    cases h with
    | going hr hs =>
      rw [hr] at hsame
      exact .going hsame (hgoing hsame hs)
    | cut x hx hr hs => exact .cut x hx (hsame.trans hr) (mt hdone.mp hs)
    | done x e hx hr hs => exact .done x e hx (hsame.trans hr) (hdone.mpr hs)
  · cases h with
    | going _ hs => exact .cut x hx hr' (mt hdone.mp hs.ne_done)
    | cut _ _ hoff _ =>
      rw [hr] at hoff
      cases hoff
    | done _ _ _ hoff _ =>
      rw [hr] at hoff
      cases hoff

/-- The task ends and drops the subscription. -/
theorem Course.finish (h : s.Course t marks) (hphase : s.phase ≠ .done) (hnext : s'.phase = .done)
    (hr' : t'.registered = false) :
    s'.Course t' (marks ++ (if t.registered = true then [.exit .dropped] else []) ++
      [.ending s.phase.ending]) := by
  cases h with
  | going hr hs =>
    rw [if_pos hr, hs.ending]
    exact .done .dropped .gone (fun _ => rfl) hr' hnext
  | cut x hx hr hs =>
    rw [if_neg (by simp [hr])]
    exact .done x _ (fun he => absurd he hx) hr' hnext
  | done x e hx hr hs => exact absurd hs hphase

end Session

namespace Bus

/-- No filter is refused on anything that is queued. -/
def Selectable (b : Bus) : Prop := ∀ s ∈ b.subscriptions, ∀ block ∈ s.backlog, block.Paired

variable {b : Bus}

theorem selectable_new (capacity : Nat) : (new capacity).Selectable := nofun

theorem backlog_effect {id : Nat} {s : Subscription} {op : Op} {block : Block}
    (h : block ∈ (b.effect id s op).backlog) : block ∈ s.backlog ∨ op = .publish block := by
  by_cases hop : op ≠ .recv id ∧ op ≠ .drop id
  · exact (effect_of_unread hop b s).2 block h
  · rw [not_and_or, not_not, not_not] at hop
    rcases hop with rfl | rfl
    · simp only [effect, if_true] at h
      exact .inl (Subscription.recv_backlog_subset b.terminal s block h)
    · simp only [effect, if_true] at h
      exact .inl h

theorem backlog_newcomer {op : Op} {s : Subscription} (h : s ∈ b.newcomer op) : s.backlog = [] := by
  cases op with
  | subscribe =>
    cases hc : b.closed with
    | true => simp [newcomer, hc] at h
    | false =>
      rw [newcomer, hc, if_neg Bool.false_ne_true, List.mem_singleton] at h
      cases hb : b.terminal <;> rw [h, hb] <;> rfl
  | _ => cases h

theorem Selectable.step (h : b.Selectable) {op : Op} (hop : ∀ block, op = .publish block → block.Paired) :
    (b.step op).Selectable := by
  intro t ht block hblock
  obtain ⟨id, hid⟩ := List.getElem?_of_mem ht
  rcases getElem?_step_cases hid with ⟨s, hs, rfl⟩ | ⟨-, hnew⟩
  · rcases backlog_effect hblock with hold | rfl
    · exact h s (List.mem_of_getElem? hs) block hold
    · exact hop block rfl
  · rw [backlog_newcomer hnew] at hblock
    cases hblock

theorem Selectable.after (h : b.Selectable) {ops : List Op}
    (hops : ∀ block, .publish block ∈ ops → block.Paired) : (b.after ops).Selectable := by
  induction ops generalizing b with
  | nil => exact h
  | cons op ops ih =>
    refine ih (h.step fun block he => hops block (he ▸ List.mem_cons_self)) fun block hm => ?_
    exact hops block (List.mem_cons_of_mem _ hm)

theorem about_exits_after_unknown {id : Nat} {ops : List Op}
    (h : (b.after ops).subscriptions.length ≤ id) : about id (Run.output step exits b ops) = [] := by
  induction ops generalizing b with
  | nil => rfl
  | cons op ops ih =>
    have hlen := (b.step op).length_le_after ops
    rw [Run.output_cons, about_append, ih h, about_exits_unknown (Nat.le_trans hlen h)]
    rfl

end Bus

namespace Service

/-- What an operation notes of subscriptions. -/
def marks (service : Service) (bus : Bus) (service' : Service) (ops : List Bus.Op) : List (Nat × Mark) :=
  (Run.output Bus.step Bus.exits bus ops).map (fun e => (e.1, .exit e.2)) ++
    (service.endings service').map fun e => (e.1, .ending e.2)

variable {service service' : Service} {bus : Bus} {ops : List Bus.Op} {log : List (Nat × Mark)}

theorem about_marks (id : Nat) : about id (service.marks bus service' ops) =
    (about id (Run.output Bus.step Bus.exits bus ops)).map .exit ++
      (about id (service.endings service')).map .ending := by
  rw [marks, about_append, about_map, about_map]

/-- What is known of all streams, and of all that has been noted. -/
structure Noted (service : Service) (bus : Bus) (log : List (Nat × Mark)) : Prop where
  separate : service.Separate bus
  sound : bus.Sound
  selectable : bus.Selectable
  unknown : ∀ id, bus.subscriptions.length ≤ id → about id log = []
  course : ∀ (client : Nat) (s : Session), service.sessions[client]? = some s →
    ∃ t, bus.subscriptions[s.subscription]? = some t ∧ s.Course t (about s.subscription log)

theorem noted_new (subscriberCapacity clientBuffer : Nat) :
    Noted (new clientBuffer) (.new subscriberCapacity) [] where
  separate := ⟨List.nodup_nil, nofun⟩
  sound := Bus.sound_new _
  selectable := Bus.selectable_new _
  unknown _ _ := rfl
  course client s (h : ([] : List Session)[client]? = some s) := by simp at h

theorem phaseFor_ne_done (filter : StreamFilter) (reason : CloseReason) (r : Received) :
    phaseFor filter reason r ≠ .done := by
  cases r with
  | block b =>
    rw [phaseFor]
    cases b.select filter <;> simp
  | _ => simp [phaseFor]

/-- What comes from a subscription that is registered is no end. -/
theorem going_phaseFor {capacity : Nat} {t : Subscription} (h : t.Live capacity)
    (hr : t.registered = true) (hpaired : ∀ block ∈ t.backlog, block.Paired) (filter : StreamFilter)
    (reason : CloseReason) (terminal : Option FeedError) :
    phaseFor filter reason (t.recv terminal).1 = .receiving ∨
      ∃ r, phaseFor filter reason (t.recv terminal).1 = .sending r := by
  cases hb : t.backlog with
  | nil =>
    have hq : t.queue = [] := by rw [h.blocks, hb, List.map_nil]
    exact .inl (by simp [Subscription.recv, hq, hr, phaseFor])
  | cons block rest =>
    have hq : t.queue = .block block :: rest.map .block := by rw [h.blocks, hb, List.map_cons]
    obtain ⟨selection, hs, -⟩ := (hpaired block (by rw [hb]; exact List.mem_cons_self)).select_ok filter
    exact .inr ⟨Response.ofSelection selection, by simp [Subscription.recv, hq, phaseFor, hs]⟩

theorem about_eq_nil {α : Type} {id : Nat} {log : List (Nat × α)} (h : ∀ e ∈ log, e.1 ≠ id) :
    about id log = [] :=
  List.filterMap_eq_nil_iff.mpr fun e he => if_neg (h e he)

theorem mem_endings {e : Nat × Session.Ending} (h : e ∈ service.endings service') :
    e.1 ∈ service'.sessions.map Session.subscription := by
  obtain ⟨xs, hxs, he⟩ := List.mem_flatten.mp h
  obtain ⟨id, hid, rfl⟩ := List.mem_mapIdx.mp hxs
  cases hs : service.sessions[id]? with
  | none =>
    rw [hs] at he
    cases he
  | some s =>
    rw [hs, Session.ending] at he
    split at he
    · rw [List.mem_singleton.mp he]
      exact List.mem_map_of_mem (List.getElem_mem hid)
    · cases he

theorem Stage.separate (h : service.Stage bus service' ops) (hsep : service.Separate bus) :
    service'.Separate (bus.after ops) := by
  have hlen := bus.length_le_after ops
  cases h with
  | aside _ hsessions hgone hops =>
    have hsame := congrArg (List.map Prod.fst) hsessions
    simp only [List.map_map] at hsame
    refine ⟨hsame ▸ hsep.distinct, fun id hid => ?_⟩
    exact Nat.lt_of_lt_of_le (hsep.known id (hsame ▸ hid)) hlen
  | join s hjoin hgone hphase hsub hopen =>
    have hnew := bus.length_step .subscribe
    rw [Bus.newcomer, hopen] at hnew
    exact hsep.append hjoin hsub (by rw [hsub]; exact hnew ▸ Nat.lt_succ_self _)
  | take id s s' hs hset hgone hsub hphase reason hnext =>
    exact hsep.touches (.inr ⟨s, s', hs, hset, hsub⟩) hlen
  | send id s s' hs hset hgone hsub r hphase hnext =>
    exact hsep.touches (.inr ⟨s, s', hs, hset, hsub⟩) hlen
  | finish id s s' hs hset hgone hsub hphase hnext =>
    exact hsep.touches (.inr ⟨s, s', hs, hset, hsub⟩) hlen

namespace Noted

variable {client : Nat} {s s' : Session}

/-- The course of a stream whose task goes on. -/
theorem undropped (h : service.Noted bus log) (hs : service.sessions[client]? = some s)
    (hsub : s'.subscription = s.subscription) (hops : .drop s.subscription ∉ ops)
    (hend : about s.subscription (service.endings service') = [])
    (hgoing : ∀ t, (bus.after ops).subscriptions[s.subscription]? = some t → t.registered = true →
      s.Going → s'.Going) (hdone : s'.phase = .done ↔ s.phase = .done) :
    ∃ t, (bus.after ops).subscriptions[s'.subscription]? = some t ∧
      s'.Course t (about s'.subscription (log ++ service.marks bus service' ops)) := by
  obtain ⟨t, ht, hcourse⟩ := h.course client s hs
  obtain ⟨t', ht', hbus⟩ := Bus.about_exits_after ht hops
  rw [hsub, about_append, about_marks, hend, List.map_nil, List.append_nil]
  exact ⟨t', ht', hcourse.undropped hbus (hgoing t' ht') hdone⟩

/-- The course of a stream that stays where it is. -/
theorem untouched (h : service.Noted bus log) (hs : service.sessions[client]? = some s)
    (hstand : s'.stand = s.stand) (hops : .drop s.subscription ∉ ops)
    (hend : about s.subscription (service.endings service') = []) :
    ∃ t, (bus.after ops).subscriptions[s'.subscription]? = some t ∧
      s'.Course t (about s'.subscription (log ++ service.marks bus service' ops)) := by
  have hphase : s'.phase = s.phase := congrArg Prod.snd hstand
  refine h.undropped hs (congrArg Prod.fst hstand) hops hend (fun _ _ _ hg => ?_) (by rw [hphase])
  rwa [Session.Going, hphase]

/-- The course of a stream beside the one that an operation is about. -/
theorem beside (h : service.Noted bus log) {id : Nat} {f f' : Session}
    (hf : service.sessions[id]? = some f) (hset : service'.sessions = service.sessions.set id f')
    (hsub : f'.subscription = f.subscription) (hs : service'.sessions[client]? = some s)
    (hne : client ≠ id) (hops : ∀ op ∈ ops, op.subject? = some f.subscription) :
    ∃ t, (bus.after ops).subscriptions[s.subscription]? = some t ∧
      s.Course t (about s.subscription (log ++ service.marks bus service' ops)) := by
  rw [hset, List.getElem?_set_ne (Ne.symm hne)] at hs
  have hother : f.subscription ≠ s.subscription := fun he =>
    hne (h.separate.client_eq hf hs he).symm
  refine h.untouched hs rfl (fun hdrop => ?_) (about_eq_nil fun e he => ?_)
  · exact hother (Option.some.inj (hops _ hdrop)).symm
  · rw [endings_set hf hset] at he
    rw [Session.ending] at he
    split at he
    · rw [List.mem_singleton.mp he, hsub]
      exact hother
    · cases he

/-- The stream that has just been opened. -/
theorem joined (h : service.Noted bus log) (hopen : bus.closed = false)
    (hsub : s.subscription = bus.subscriptions.length) (hphase : s.phase = .receiving)
    (hend : service.endings service' = []) :
    ∃ t, (bus.after [.subscribe]).subscriptions[s.subscription]? = some t ∧
      s.Course t (about s.subscription (log ++ service.marks bus service' [.subscribe])) := by
  have hnone := h.unknown s.subscription (Nat.le_of_eq hsub.symm)
  have hnew : (bus.step .subscribe).subscriptions[s.subscription]? =
      some (bus.terminal.elim .fresh .halted) := by
    rw [Bus.subscriptions_step, Bus.newcomer, hopen, hsub, List.getElem?_append_right (by simp)]
    simp
  have hexits : about s.subscription (Run.output Bus.step Bus.exits bus [.subscribe]) =
      if bus.terminal.isSome then [.late] else [] := by
    rw [Run.output_cons, Run.output_nil, List.append_nil, hsub, Bus.about_exits_newcomer hopen]
  refine ⟨_, hnew, ?_⟩
  rw [about_append, about_marks, hnone, hexits, hend]
  cases bus.terminal with
  | none => exact .going rfl (.inl hphase)
  | some e => exact .cut .late (by simp) rfl (by simp [hphase])

/-- The stream whose task takes what is waiting for it. -/
theorem took (h : service.Noted bus log) (hs : service.sessions[client]? = some s)
    (hset : service'.sessions = service.sessions.set client s') (hsub : s'.subscription = s.subscription)
    (hphase : s.phase = .receiving) {reason : CloseReason}
    (hnext : s'.phase = phaseFor s.filter reason (bus.recv s.subscription).1) :
    ∃ t, (bus.after [.recv s.subscription]).subscriptions[s'.subscription]? = some t ∧
      s'.Course t (about s'.subscription
        (log ++ service.marks bus service' [.recv s.subscription])) := by
  have hgone := phaseFor_ne_done s.filter reason (bus.recv s.subscription).1
  rw [← hnext] at hgone
  have hend : service.endings service' = [] := by
    rw [endings_set hs hset, Session.ending_of_unfinished hgone]
  obtain ⟨t, ht, -⟩ := h.course client s hs
  refine h.undropped hs hsub (by simp) (by rw [hend]; rfl) ?_ (by simp [hgone, hphase])
  intro t' ht' hr' _
  -- Off the register nobody is put back on it.
  have hr := Bus.registered_of_after ht ht' hr'
  have hlive := (h.sound _ t ht hr).1
  have hpaired := h.selectable t (List.mem_of_getElem? ht)
  rw [Session.Going, hnext, Bus.recv_fst ht]
  exact going_phaseFor hlive hr hpaired s.filter reason bus.terminal

/-- The stream whose task ends. -/
theorem finished (h : service.Noted bus log) (hs : service.sessions[client]? = some s)
    (hset : service'.sessions = service.sessions.set client s') (hsub : s'.subscription = s.subscription)
    (hphase : s.phase ≠ .done) (hnext : s'.phase = .done) :
    ∃ t, (bus.after [.drop s.subscription]).subscriptions[s'.subscription]? = some t ∧
      s'.Course t (about s'.subscription
        (log ++ service.marks bus service' [.drop s.subscription])) := by
  obtain ⟨t, ht, hcourse⟩ := h.course client s hs
  have ht' := Bus.getElem?_step ht (.drop s.subscription)
  have hout : (bus.effect s.subscription t (.drop s.subscription)).registered = false := by
    simp [Bus.effect]
  have hexits : about s.subscription (Run.output Bus.step Bus.exits bus [.drop s.subscription]) =
      if t.registered = true then [.dropped] else [] := by
    rw [Run.output_cons, Run.output_nil, List.append_nil, Bus.about_exits ht]
    simp [hout, Bus.Op.exit?]
  have hend : about s.subscription (service.endings service') = [s.phase.ending] := by
    rw [endings_set hs hset, Session.ending_of_finished hphase hnext, hsub]
    simp [about]
  have hcourse' := hcourse.finish hphase hnext hout
  rw [hsub]
  refine ⟨_, ht', ?_⟩
  rw [about_append, about_marks, hexits, hend]
  cases hr : t.registered <;> simpa [hr] using hcourse'

theorem course_stage (h : service.Noted bus log) (hstage : service.Stage bus service' ops)
    (hs' : service'.sessions[client]? = some s') :
    ∃ t, (bus.after ops).subscriptions[s'.subscription]? = some t ∧
      s'.Course t (about s'.subscription (log ++ service.marks bus service' ops)) := by
  -- In the last three cases the operation is about one session, which has come to `f`.
  have hself : ∀ {f : Session}, service'.sessions = service.sessions.set client f →
      client < service.sessions.length → f = s' := by
    intro f hset hlt
    rw [hset, List.getElem?_set_self hlt] at hs'
    exact Option.some.inj hs'
  cases hstage with
  | aside _ hsessions hgone hops =>
    have hstand := congrArg (·[client]?) hsessions
    simp only [List.getElem?_map, hs', Option.map_some] at hstand
    obtain ⟨s, hs, hsame⟩ := Option.map_eq_some_iff.mp hstand.symm
    refine h.untouched hs hsame.symm (hops s (List.mem_of_getElem? hs)) ?_
    rw [endings_of_stand hsessions]
    rfl
  | join s hjoin hgone hphase hsub hopen =>
    have hend := endings_join hjoin
    rw [hjoin] at hs'
    by_cases hold : client < service.sessions.length
    · rw [List.getElem?_append_left hold] at hs'
      exact h.untouched hs' rfl (by simp) (by rw [hend]; rfl)
    · rw [List.getElem?_append_right (Nat.not_lt.mp hold)] at hs'
      obtain rfl := List.mem_singleton.mp (List.mem_of_getElem? hs')
      exact h.joined hopen hsub hphase hend
  | take id s f hs hset hgone hsub hphase reason hnext =>
    by_cases hid : client = id
    · subst hid
      obtain rfl := hself hset (List.getElem?_eq_some_iff.mp hs).1
      exact h.took hs hset hsub hphase hnext
    · exact h.beside hs hset hsub hs' hid (by simp [Bus.Op.subject?])
  | send id s f hs hset hgone hsub r hphase hnext =>
    by_cases hid : client = id
    · subst hid
      obtain rfl := hself hset (List.getElem?_eq_some_iff.mp hs).1
      have hunfinished : f.phase ≠ .done := by simp [hnext]
      have hend : service.endings service' = [] := by
        rw [endings_set hs hset, Session.ending_of_unfinished hunfinished]
      exact h.undropped hs hsub List.not_mem_nil (by rw [hend]; rfl) (fun _ _ _ _ => .inl hnext)
        (by simp [hphase, hnext])
    · exact h.beside hs hset hsub hs' hid (by simp)
  | finish id s f hs hset hgone hsub hphase hnext =>
    by_cases hid : client = id
    · subst hid
      obtain rfl := hself hset (List.getElem?_eq_some_iff.mp hs).1
      exact h.finished hs hset hsub hphase hnext
    · exact h.beside hs hset hsub hs' hid (by simp [Bus.Op.subject?])

/-- Nothing is noted of a subscription that there is not. -/
theorem unknown_stage (h : service.Noted bus log) (hstage : service.Stage bus service' ops) {id : Nat}
    (hid : (bus.after ops).subscriptions.length ≤ id) :
    about id (log ++ service.marks bus service' ops) = [] := by
  have hold := h.unknown id (Nat.le_trans (bus.length_le_after ops) hid)
  have hend : about id (service.endings service') = [] := about_eq_nil fun e he heq => by
    have hlt := (hstage.separate h.separate).known e.1 (mem_endings he)
    omega
  rw [about_append, about_marks, hold, Bus.about_exits_after_unknown hid, hend]
  rfl

theorem stage (h : service.Noted bus log) (hstage : service.Stage bus service' ops)
    (hblocks : ∀ block, .publish block ∈ ops → block.Paired) :
    service'.Noted (bus.after ops) (log ++ service.marks bus service' ops) where
  separate := hstage.separate h.separate
  sound := h.sound.after ops
  selectable := h.selectable.after hblocks
  unknown _ hid := h.unknown_stage hstage hid
  course _ _ hs' := h.course_stage hstage hs'

end Noted

/-- The service counts the tasks that end because the client is gone. -/
theorem Stage.clientsGone (h : service.Stage bus service' ops) : service'.clientsGone =
    service.clientsGone +
      ((service.endings service').filterMap (·.2.reason?)).count .clientGone := by
  cases h with
  | aside _ hsessions hgone hops => rw [endings_of_stand hsessions, hgone]; rfl
  | join s hjoin hgone hphase hsub hopen => rw [endings_join hjoin, hgone]; rfl
  | take id s s' hs hset hgone hsub hphase reason hnext =>
    have hunfinished : s'.phase ≠ .done := by
      rw [hnext]
      exact phaseFor_ne_done _ _ _
    rw [endings_set hs hset, Session.ending_of_unfinished hunfinished, hgone]
    rfl
  | send id s s' hs hset hgone hsub r hphase hnext =>
    rw [endings_set hs hset, Session.ending_of_unfinished (by simp [hnext]), hgone]
    rfl
  | finish id s s' hs hset hgone hsub hphase hnext =>
    rw [endings_set hs hset, Session.ending_of_finished hphase hnext, hgone]
    cases s.phase.ending <;> rfl

end Service

end BlockFeed
