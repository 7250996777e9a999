/-! Runs: operations that act on a state one after the other, and what they give out on the way. -/

namespace BlockFeed.Run

variable {σ τ ο ο' ε : Type}

def after (step : σ → ο → σ) : σ → List ο → σ := List.foldl step

/-- What operations give out, in order. -/
def output (step : σ → ο → σ) (out : σ → ο → List ε) : σ → List ο → List ε
  | _, [] => []
  | s, op :: ops => out s op ++ output step out (step s op) ops

@[simp] theorem after_nil (step : σ → ο → σ) (s : σ) : after step s [] = s := rfl

@[simp] theorem after_cons (step : σ → ο → σ) (s : σ) (op : ο) (ops : List ο) :
    after step s (op :: ops) = after step (step s op) ops := rfl

@[simp] theorem after_append (step : σ → ο → σ) (s : σ) (ops ops' : List ο) :
    after step s (ops ++ ops') = after step (after step s ops) ops' :=
  List.foldl_append

@[simp] theorem output_nil (step : σ → ο → σ) (out : σ → ο → List ε) (s : σ) :
    output step out s [] = [] := rfl

@[simp] theorem output_cons (step : σ → ο → σ) (out : σ → ο → List ε) (s : σ) (op : ο)
    (ops : List ο) :
    output step out s (op :: ops) = out s op ++ output step out (step s op) ops := rfl

@[simp] theorem output_append (step : σ → ο → σ) (out : σ → ο → List ε) (s : σ)
    (ops ops' : List ο) :
    output step out s (ops ++ ops') =
      output step out s ops ++ output step out (after step s ops) ops' := by
  induction ops generalizing s with
  | nil => rfl
  | cons op ops ih => simp [ih, List.append_assoc]

theorem after_induction {step : σ → ο → σ} {P : σ → Prop} (hstep : ∀ s op, P s → P (step s op))
    {s : σ} (h : P s) (ops : List ο) : P (after step s ops) := by
  induction ops generalizing s with
  | nil => exact h
  | cons op ops ih => exact ih (hstep s op h)

/-- A count that goes up with everything that is given out counts all of it. -/
theorem count_after {step : σ → ο → σ} {out : σ → ο → List ε} (count : σ → Nat)
    (h : ∀ s op, count (step s op) = count s + (out s op).length) (s : σ) (ops : List ο) :
    count (after step s ops) = count s + (output step out s ops).length := by
  induction ops generalizing s with
  | nil => rfl
  | cons op ops ih => rw [after_cons, ih, h, output_cons, List.length_append, Nat.add_assoc]

/-- What is given out is given out by some operation of the run. -/
theorem mem_output {step : σ → ο → σ} {out : σ → ο → List ε} {s : σ} {ops : List ο} {e : ε}
    (h : e ∈ output step out s ops) :
    ∃ before op rest, ops = before ++ op :: rest ∧ e ∈ out (after step s before) op := by
  induction ops generalizing s with
  | nil => cases h
  | cons op ops ih =>
    rw [output_cons, List.mem_append] at h
    rcases h with h | h
    · exact ⟨[], op, ops, rfl, h⟩
    · obtain ⟨before, op', rest, rfl, hh⟩ := ih h
      exact ⟨op :: before, op', rest, rfl, hh⟩

section Part

/-! A part of a state that every operation moves by operations of its own has a run of its own. -/

variable {step : σ → ο → σ} {part : σ → τ} {step' : τ → ο' → τ} {trace : σ → ο → List ο'}

theorem part_after (h : ∀ s op, part (step s op) = after step' (part s) (trace s op))
    (s : σ) (ops : List ο) :
    part (after step s ops) = after step' (part s) (output step trace s ops) := by
  induction ops generalizing s with
  | nil => rfl
  | cons op ops ih => simp [ih, h]

theorem part_output (h : ∀ s op, part (step s op) = after step' (part s) (trace s op))
    (out : τ → ο' → List ε) (s : σ) (ops : List ο) :
    output step (fun s op => output step' out (part s) (trace s op)) s ops =
      output step' out (part s) (output step trace s ops) := by
  induction ops generalizing s with
  | nil => rfl
  | cons op ops ih => simp [ih, h]

end Part

section Rounds

/-! Two operations that come in turn, among others, get a piece of work done. -/

variable {step : σ → ο → σ} {out : σ → ο → List ε}

def rounds (first second : ο) (n : Nat) : List ο := (List.replicate n [first, second]).flatten

theorem rounds_succ (first second : ο) (n : Nat) :
    rounds first second (n + 1) = first :: second :: rounds first second n := by
  simp [rounds, List.replicate_succ]

/-- A count of the rounds that are still needed, given the state and what has been given out: `left`
between two rounds, `due` within one. -/
structure Paced (step : σ → ο → σ) (out : σ → ο → List ε) (allowed : ο → Prop) (first second : ο)
    (left due : σ → List ε → Nat → Prop) : Prop where
  first : ∀ s log n, left s log (n + 1) → due (step s first) (log ++ out s first) n
  second : ∀ s log n, due s log n → left (step s second) (log ++ out s second) n
  left : ∀ s log n op, allowed op → left s log n → left (step s op) (log ++ out s op) n
  due : ∀ s log n op, allowed op → due s log n → due (step s op) (log ++ out s op) n

variable {allowed : ο → Prop} {first second : ο} {left due : σ → List ε → Nat → Prop}

theorem Paced.done (h : Paced step out allowed first second left due) {s : σ} {log : List ε} {n : Nat}
    {ops : List ο} (hops : ∀ op ∈ ops, allowed op) (hl : left s log n)
    (hrounds : (rounds first second n).Sublist ops) :
    left (after step s ops) (log ++ output step out s ops) 0 := by
  -- Both where a round begins and between its two operations.
  suffices hboth : (left s log n → (rounds first second n).Sublist ops →
      left (after step s ops) (log ++ output step out s ops) 0) ∧
      (due s log n → (second :: rounds first second n).Sublist ops →
      left (after step s ops) (log ++ output step out s ops) 0) from hboth.1 hl hrounds
  clear hl hrounds
  induction ops generalizing s log n with
  | nil =>
    refine ⟨fun hl hsub => ?_, fun _ hsub => by cases hsub⟩
    cases n with
    | zero => simpa using hl
    | succ n =>
      rw [rounds_succ] at hsub
      cases hsub
  | cons op ops ih =>
    have hop := hops op List.mem_cons_self
    have hrest : ∀ op' ∈ ops, allowed op' := fun op' hm => hops op' (List.mem_cons_of_mem _ hm)
    rw [after_cons, output_cons, ← List.append_assoc]
    refine ⟨fun hl hsub => ?_, fun hd hsub => ?_⟩
    · rcases List.sublist_cons_iff.mp hsub with hskip | ⟨rest, hrounds, hsub⟩
      · exact (ih hrest).1 (h.left s log n op hop hl) hskip
      · cases n with
        | zero => cases hrounds
        | succ n =>
          rw [rounds_succ] at hrounds
          obtain ⟨rfl, rfl⟩ := List.cons.inj hrounds
          exact (ih hrest).2 (h.first s log n hl) hsub
    · rcases List.sublist_cons_iff.mp hsub with hskip | ⟨rest, hrounds, hsub⟩
      · exact (ih hrest).2 (h.due s log n op hop hd) hskip
      · obtain ⟨rfl, rfl⟩ := List.cons.inj hrounds
        exact (ih hrest).1 (h.second s log n hd) hsub

end Rounds

end BlockFeed.Run
