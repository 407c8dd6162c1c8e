import Mathlib.Data.List.Induction

/-!
# Runs of a deterministic machine

A machine answers a call and moves to its next state. `run` is the state after a list of
calls, `trace` the list of events on the way, each with the states around it. The rules
below are the induction principles a client uses:

* `run_invariant` for a property of states that every step keeps;
* `run_invariant_of` for one that is kept only by steps that meet a condition, and
  `trace_invariant_of` for the same around every event;
* `history` for a property that ties the state to the events before it;
* `trace_eq_append_cons` to look at one event of a run with what came before and after;
* `trace_pairwise` for what an event says about every later one.
-/

namespace Machine

variable {σ κ ρ : Type}

/-- One call with its response and the states around it. -/
structure Event (σ κ ρ : Type) where
  before : σ
  call : κ
  response : ρ
  after : σ

variable (step : σ → κ → σ × ρ)

/-- The event of answering `c` in the state `s`. -/
def eventAt (s : σ) (c : κ) : Event σ κ ρ := ⟨s, c, (step s c).2, (step s c).1⟩

@[simp] theorem eventAt_before (s : σ) (c : κ) : (eventAt step s c).before = s := rfl

@[simp] theorem eventAt_call (s : σ) (c : κ) : (eventAt step s c).call = c := rfl

def run (s : σ) : List κ → σ
  | [] => s
  | c :: cs => run (step s c).1 cs

def trace (s : σ) : List κ → List (Event σ κ ρ)
  | [] => []
  | c :: cs => eventAt step s c :: trace (step s c).1 cs

theorem run_append (s : σ) (cs ds : List κ) :
    run step s (cs ++ ds) = run step (run step s cs) ds := by
  induction cs generalizing s with
  | nil => rfl
  | cons c cs ih => exact ih (step s c).1

theorem trace_append (s : σ) (cs ds : List κ) :
    trace step s (cs ++ ds) = trace step s cs ++ trace step (run step s cs) ds := by
  induction cs generalizing s with
  | nil => rfl
  | cons c cs ih =>
    rw [List.cons_append, trace, trace, List.cons_append, ih, run]

theorem run_concat (s : σ) (cs : List κ) (c : κ) :
    run step s (cs ++ [c]) = (step (run step s cs) c).1 := by
  rw [run_append]
  rfl

theorem trace_concat (s : σ) (cs : List κ) (c : κ) :
    trace step s (cs ++ [c]) = trace step s cs ++ [eventAt step (run step s cs) c] := by
  rw [trace_append]
  rfl

/-- A property that every step keeps holds after every run. -/
theorem run_invariant {I : σ → Prop} (hStep : ∀ s c, I s → I (step s c).1) {s : σ} (hs : I s)
    (cs : List κ) : I (run step s cs) := by
  induction cs generalizing s with
  | nil => exact hs
  | cons c cs ih => exact ih (hStep s c hs)

/-- A property kept by the steps that meet `P` holds after every run made of such steps. -/
theorem run_invariant_of {I : σ → Prop} {P : Event σ κ ρ → Prop}
    (hStep : ∀ s c, I s → P (eventAt step s c) → I (step s c).1) {s : σ} (hs : I s)
    {cs : List κ} (hP : ∀ e ∈ trace step s cs, P e) : I (run step s cs) := by
  induction cs generalizing s with
  | nil => exact hs
  | cons c cs ih =>
    have hHead : P (eventAt step s c) := hP _ List.mem_cons_self
    exact ih (hStep s c hs hHead) fun e he => hP e (List.mem_cons_of_mem _ he)

/-- A property of the past and the present that every step extends holds along every run. -/
theorem history {H : List (Event σ κ ρ) → σ → Prop}
    (hStep : ∀ past s c, H past s → H (past ++ [eventAt step s c]) (step s c).1)
    {s : σ} (hs : H [] s) (cs : List κ) : H (trace step s cs) (run step s cs) := by
  induction cs using List.reverseRecOn with
  | nil => exact hs
  | append_singleton cs c ih =>
    rw [trace_concat, run_concat]
    exact hStep _ _ c ih

/-- Looking at one event of a run: the calls before it lead to its first state. -/
theorem trace_eq_append_cons {s : σ} {cs : List κ} {past future : List (Event σ κ ρ)}
    {e : Event σ κ ρ} (h : trace step s cs = past ++ e :: future) :
    ∃ before after, cs = before ++ e.call :: after ∧ trace step s before = past ∧
      e = eventAt step (run step s before) e.call ∧
      trace step e.after after = future := by
  induction cs generalizing s past with
  | nil =>
    cases past <;> cases h
  | cons c cs ih =>
    cases past with
    | nil =>
      obtain ⟨he, hRest⟩ := List.cons.inj h
      subst he
      exact ⟨[], cs, rfl, rfl, rfl, hRest⟩
    | cons p past =>
      obtain ⟨hp, hRest⟩ := List.cons.inj h
      obtain ⟨before, after, hcs, hPast, he, hFuture⟩ := ih hRest
      refine ⟨c :: before, after, ?_, ?_, he, hFuture⟩
      · rw [hcs, List.cons_append]
      · rw [trace, hp, hPast]

/-- Every event of a run happens in a state that an initial part of the run reaches. -/
theorem mem_trace {s : σ} {cs : List κ} {e : Event σ κ ρ} (h : e ∈ trace step s cs) :
    ∃ before after, cs = before ++ e.call :: after ∧
      e = eventAt step (run step s before) e.call := by
  obtain ⟨past, future, hSplit⟩ := List.append_of_mem h
  obtain ⟨before, after, hcs, -, he, -⟩ := trace_eq_append_cons step hSplit
  exact ⟨before, after, hcs, he⟩

theorem map_call_trace (s : σ) (cs : List κ) : (trace step s cs).map (fun e => e.call) = cs := by
  induction cs generalizing s with
  | nil => rfl
  | cons c cs ih => rw [trace, List.map_cons, eventAt_call, ih]

theorem call_mem {s : σ} {cs : List κ} {e : Event σ κ ρ} (h : e ∈ trace step s cs) :
    e.call ∈ cs := by
  obtain ⟨before, after, hcs, -⟩ := mem_trace step h
  rw [hcs]
  exact List.mem_append_right before List.mem_cons_self

/-- A property kept by the steps that meet `P` holds around every event of a run made of such
steps. -/
theorem trace_invariant_of {I : σ → Prop} {P : Event σ κ ρ → Prop}
    (hStep : ∀ s c, I s → P (eventAt step s c) → I (step s c).1) {s : σ} (hs : I s)
    {cs : List κ} (hP : ∀ e ∈ trace step s cs, P e) :
    ∀ e ∈ trace step s cs, I e.before ∧ I e.after := by
  induction cs generalizing s with
  | nil =>
    intro e he
    cases he
  | cons c cs ih =>
    have hNext : I (step s c).1 := hStep s c hs (hP _ List.mem_cons_self)
    intro e he
    rcases List.mem_cons.mp he with rfl | he
    · exact ⟨hs, hNext⟩
    · exact ih hNext (fun e he => hP e (List.mem_cons_of_mem _ he)) e he

/-- What an event leaves behind, and every step keeps, says something about all later events. -/
theorem trace_pairwise {α : Type} {Q R : α → Event σ κ ρ → Prop} {D : α → σ → Prop}
    (hLeaves : ∀ a s c, Q a (eventAt step s c) → D a (step s c).1)
    (hKeeps : ∀ a s c, D a s → D a (step s c).1)
    (hSays : ∀ a s c, D a s → R a (eventAt step s c)) (s : σ) (cs : List κ) :
    (trace step s cs).Pairwise fun e e' => ∀ a, Q a e → R a e' := by
  induction cs generalizing s with
  | nil => exact List.Pairwise.nil
  | cons c cs ih =>
    refine List.Pairwise.cons (fun e' he' a hQ => ?_) (ih (step s c).1)
    obtain ⟨before, after, -, hEvent⟩ := mem_trace step he'
    rw [hEvent]
    exact hSays a _ _ (run_invariant step (hKeeps a) (hLeaves a s c hQ) before)

end Machine
