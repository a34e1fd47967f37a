import ComponentAudit.Project.Run

/-! # What a run returns

A run that returns went through all its steps: each of them returned, from the entries that the steps
before it had left. A run that fails does so at one of its steps, and a handler takes over from there. -/

namespace ComponentAudit.Run

variable {α β : Type}

/-- From some log entries, a run returns a value and leaves its own entries behind them. -/
def Returns (run : Run α) (before : List LogEntry) (value : α) (after : List LogEntry) : Prop :=
  StateT.run (ExceptT.run run) before = (.ok value, after)

variable {run : Run α} {s t u : List LogEntry} {a : α}

theorem result_eq_ok : run.result.1 = .ok a ↔ ∃ t, run.Returns [] a t := by
  constructor
  · intro h
    exact ⟨_, Prod.ext h rfl⟩
  · rintro ⟨t, h⟩
    exact congrArg Prod.fst h

/-- A run is deterministic. -/
theorem Returns.unique {b : α} (h : run.Returns s a t) (h' : run.Returns s b u) : a = b ∧ t = u := by
  obtain ⟨hvalue, hentries⟩ := Prod.mk.inj (h.symm.trans h')
  exact ⟨Except.ok.inj hvalue, hentries⟩

namespace Returns

theorem pure {b : α} (h : Returns (pure b : Run α) s a t) : a = b ∧ t = s := by
  cases h
  exact ⟨rfl, rfl⟩

theorem bind {next : α → Run β} {b : β} (h : Returns (run >>= next) s b u) :
    ∃ a t, run.Returns s a t ∧ (next a).Returns t b u := by
  cases hrun : StateT.run (ExceptT.run run) s with
  | mk outcome t =>
    unfold Returns at h
    simp only [ExceptT.run_bind, StateT.run_bind, hrun] at h
    cases outcome with
    | ok a => exact ⟨a, t, hrun, h⟩
    | error failure => cases h

theorem not_throw {failure : Failure} (h : Returns (throw failure : Run α) s a t) : False := by
  cases h

/-- One step for each item, when a step's value depends on the item alone. -/
theorem mapM {step : α → Run β} {value : α → β} {holds : α → Prop}
    (hstep : ∀ {x s y t}, (step x).Returns s y t → y = value x ∧ holds x) {xs : List α} {ys : List β}
    (h : Returns (xs.mapM step) s ys t) : ys = xs.map value ∧ ∀ x ∈ xs, holds x := by
  induction xs generalizing s ys t with
  | nil => exact ⟨(pure h).1, fun x hx => (List.not_mem_nil hx).elim⟩
  | cons x xs ih =>
    rw [List.mapM_cons] at h
    obtain ⟨y, s₁, hfirst, h⟩ := bind h
    obtain ⟨more, s₂, hrest, h⟩ := bind h
    obtain ⟨hy, hx⟩ := hstep hfirst
    obtain ⟨hmore, hxs⟩ := ih hrest
    refine ⟨?_, List.forall_mem_cons.mpr ⟨hx, hxs⟩⟩
    rw [(pure h).1, hy, hmore, List.map_cons]

theorem bind_intro {next : α → Run β} {b : β} (hrun : run.Returns s a t)
    (hnext : (next a).Returns t b u) : Returns (run >>= next) s b u := by
  unfold Returns at hrun hnext ⊢
  simp only [ExceptT.run_bind, StateT.run_bind, hrun]
  exact hnext

end Returns

/-! ## Runs that do not fail -/

/-- From any log entries, a run returns a value of which `holds` is true. -/
def Succeeds (run : Run α) (holds : α → Prop) : Prop := ∀ s, ∃ a t, run.Returns s a t ∧ holds a

namespace Succeeds

theorem pure {holds : α → Prop} (h : holds a) : Succeeds (pure a) holds := fun s => ⟨a, s, rfl, h⟩

theorem pure_self (a : α) : (Pure.pure a : Run α).Succeeds (· = a) := pure rfl

theorem bind {holds : α → Prop} {next : α → Run β} {result : β → Prop} (hrun : run.Succeeds holds)
    (hnext : ∀ a, holds a → (next a).Succeeds result) : Succeeds (run >>= next) result := by
  intro s
  obtain ⟨a, t, ha, hholds⟩ := hrun s
  obtain ⟨b, u, hb, hresult⟩ := hnext a hholds t
  exact ⟨b, u, ha.bind_intro hb, hresult⟩

theorem imp {holds other : α → Prop} (h : run.Succeeds holds) (himp : ∀ a, holds a → other a) :
    run.Succeeds other := by
  intro s
  obtain ⟨a, t, ha, hholds⟩ := h s
  exact ⟨a, t, ha, himp a hholds⟩

/-- What comes behind a step whose value is known. -/
theorem step {next : α → Run β} {result : β → Prop} (hrun : run.Succeeds (· = a))
    (hnext : (next a).Succeeds result) : Succeeds (run >>= next) result := by
  refine hrun.bind fun value hvalue => ?_
  rw [hvalue]
  exact hnext

theorem logAll (entries : List LogEntry) : (logAll entries).Succeeds (· = ()) :=
  fun s => ⟨(), s ++ entries, rfl, rfl⟩

theorem analyzeFile (source filePath : Text) (options : Options) :
    (analyzeFile source filePath options).Succeeds (· = analyze source filePath options) :=
  (logAll _).step (pure rfl)

theorem mapM {step : α → Run β} {holds : β → Prop} {xs : List α}
    (h : ∀ x ∈ xs, (step x).Succeeds holds) : Succeeds (xs.mapM step) fun _ => True := by
  induction xs with
  | nil => exact pure trivial
  | cons x xs ih =>
    obtain ⟨hx, hxs⟩ := List.forall_mem_cons.mp h
    rw [List.mapM_cons]
    exact hx.bind fun y _ => (ih hxs).bind fun ys _ => pure trivial

/-- A run has one value. -/
theorem eq {b : α} (ha : run.Succeeds (· = a)) (hb : run.Succeeds (· = b)) : a = b := by
  obtain ⟨_, _, hreturns, rfl⟩ := ha []
  obtain ⟨_, _, hreturns', rfl⟩ := hb []
  exact (hreturns.unique hreturns').1

theorem result {holds : α → Prop} (h : run.Succeeds holds) : ∃ a, run.result.1 = .ok a ∧ holds a := by
  obtain ⟨a, t, ha, hholds⟩ := h []
  exact ⟨a, result_eq_ok.mpr ⟨t, ha⟩, hholds⟩

end Succeeds

/-- A run has one value, whatever the entries in front of it are. -/
def Settles (run : Run α) : Prop := ∃ a, run.Succeeds (· = a)

namespace Settles

theorem pure (a : α) : Settles (pure a) := ⟨a, .pure rfl⟩

theorem bind {next : α → Run β} (hrun : run.Succeeds (· = a)) (hnext : (next a).Settles) :
    Settles (run >>= next) := by
  obtain ⟨b, hb⟩ := hnext
  exact ⟨b, hrun.step hb⟩

theorem foldlM {step : β → α → Run β} (h : ∀ b x, (step b x).Settles) (xs : List α) (b : β) :
    Settles (xs.foldlM step b) := by
  induction xs generalizing b with
  | nil => exact pure b
  | cons x xs ih =>
    obtain ⟨next, hnext⟩ := h b x
    rw [List.foldlM_cons]
    exact bind hnext (ih next)

end Settles

/-! ## Runs that fail -/

/-- From any log entries, a run fails in one way. -/
def Fails (run : Run α) (failure : Failure) : Prop :=
  ∀ s, ∃ t, StateT.run (ExceptT.run run) s = (.error failure, t)

theorem fails_throw (failure : Failure) : Fails (throw failure : Run α) failure := fun s => ⟨s, rfl⟩

variable {failure : Failure}

theorem Fails.result (h : run.Fails failure) : run.result.1 = .error failure := by
  obtain ⟨t, ht⟩ := h []
  exact congrArg Prod.fst ht

/-- What comes behind a failed step is not run. -/
theorem Fails.bind (h : run.Fails failure) (next : α → Run β) : Fails (run >>= next) failure := by
  intro s
  obtain ⟨t, ht⟩ := h s
  refine ⟨t, ?_⟩
  simp only [ExceptT.run_bind, StateT.run_bind, ht]
  rfl

theorem Succeeds.step_fails {next : α → Run β} (hrun : run.Succeeds (· = a))
    (hnext : (next a).Fails failure) : Fails (run >>= next) failure := by
  intro s
  obtain ⟨_, t, ha, rfl⟩ := hrun s
  obtain ⟨u, hu⟩ := hnext t
  refine ⟨u, ?_⟩
  unfold Returns at ha
  simp only [ExceptT.run_bind, StateT.run_bind, ha]
  exact hu

/-! ## Runs that break off -/

/-- From any log entries, a run ends in one way, and without a message. -/
def Breaks (run : Run α) : Prop := ∃ breakdown, run.Fails (.broken breakdown)

theorem Breaks.bind (h : run.Breaks) (next : α → Run β) : Breaks (run >>= next) := by
  obtain ⟨breakdown, hfails⟩ := h
  exact ⟨breakdown, hfails.bind next⟩

/-- What a run with a known value goes on to. -/
theorem Succeeds.step_breaks {next : α → Run β} (hrun : run.Succeeds (· = a))
    (hnext : (next a).Breaks) : Breaks (run >>= next) := by
  obtain ⟨breakdown, hfails⟩ := hnext
  exact ⟨breakdown, hrun.step_fails hfails⟩

theorem orBreak_succeeds {step : Except Breakdown α} (h : step = .ok a) :
    (orBreak step).Succeeds (· = a) := by
  rw [h]
  exact .pure rfl

theorem orBreak_breaks {step : Except Breakdown α} (h : ∃ breakdown, step = .error breakdown) :
    (orBreak step).Breaks := by
  obtain ⟨breakdown, h⟩ := h
  rw [h]
  exact ⟨breakdown, fails_throw _⟩

section Finds

variable {files : Files} {location : Location}

theorem finds_succeeds (h : files.overlong location.path = false) :
    (finds files location).Succeeds (· = files.contains location) := by
  refine orBreak_succeeds ?_
  rw [Files.finds, if_neg (by simp [h])]
  rfl

theorem finds_breaks (h : files.overlong location.path = true) : (finds files location).Breaks := by
  refine orBreak_breaks ⟨.file ⟨.nameTooLong, location.text⟩, ?_⟩
  rw [Files.finds, if_pos h]
  rfl

end Finds

/-! ## Handled failures -/

theorem Succeeds.tryCatch {holds : α → Prop} (h : run.Succeeds holds) (handler : Failure → Run α) :
    Succeeds (tryCatch run handler) holds := by
  intro s
  obtain ⟨a, t, ha, hholds⟩ := h s
  refine ⟨a, t, ?_, hholds⟩
  unfold Returns at ha ⊢
  simp only [ExceptT.run_tryCatch, StateT.run_bind, ha]
  rfl

/-- A handler goes on from the entries that a failed run left. -/
theorem Fails.run_tryCatch (h : run.Fails failure) (handler : Failure → Run α)
    (s : List LogEntry) : ∃ t, StateT.run (ExceptT.run (tryCatch run handler)) s =
      StateT.run (ExceptT.run (handler failure)) t := by
  obtain ⟨t, ht⟩ := h s
  refine ⟨t, ?_⟩
  simp only [ExceptT.run_tryCatch, StateT.run_bind, ht]
  rfl

theorem Fails.tryCatch_succeeds {handler : Failure → Run α} {holds : α → Prop}
    (h : run.Fails failure) (hhandler : (handler failure).Succeeds holds) :
    Succeeds (tryCatch run handler) holds := by
  intro s
  obtain ⟨t, ht⟩ := h.run_tryCatch handler s
  obtain ⟨a, u, ha, hholds⟩ := hhandler t
  exact ⟨a, u, ht.trans ha, hholds⟩

theorem Fails.tryCatch_fails {handler : Failure → Run α} {other : Failure}
    (h : run.Fails failure) (hhandler : (handler failure).Fails other) :
    Fails (tryCatch run handler) other := by
  intro s
  obtain ⟨t, ht⟩ := h.run_tryCatch handler s
  obtain ⟨u, hu⟩ := hhandler t
  exact ⟨u, ht.trans hu⟩

end ComponentAudit.Run
