import LinearProgram.Proofs.Solver.Reports
import LinearProgram.Proofs.Solver.Wording
import LinearProgram.Proofs.Tableau.Sequence

/-!
# The log is a trace of the solve

Read record by record, a log gives back the solve: the places of the pivots, the tableaux that they
lead to, the steps that were reached, and the failure that stopped it.  Each of these readings is
kept right by a step, whatever the calls, so that a log of all levels can be replayed: the pivots
that it names, done one after the other in the first tableau that it shows, give all the others.

* `Linked`, `Replays`, `Numbered`, `Warns`   what is kept, one reading each;
* `IsTrace`                                  all of it;
* `calls_isTrace`                            the log of any calls;
* `log_isTrace`                              the same over doubles, with the text of the log.
-/

namespace LinearProgram

variable {α : Type}

/-! ### readings of a record -/

namespace Event

/-- the row and the column of a pivot -/
def place? : Event α → Option (Nat × Nat)
  | pivotChosen _ row column => some (row, column)
  | _ => none

/-- a tableau after a pivot, with the number of the pivot -/
def traced? : Event α → Option (Nat × Tableau α)
  | pivoted iteration t => some (iteration, t)
  | _ => none

def initial? : Event α → Option (Tableau α)
  | initialTableau t => some t
  | _ => none

/-- a step that was left and the one that was reached -/
def steps? : Event α → Option (Step × Step)
  | stepped _ before after => some (before, after)
  | _ => none

/-- the method that a record names -/
def method? : Event α → Option Method
  | pivotChosen m _ _ => some m
  | stepped m _ _ => some m
  | failed m _ _ => some m
  | solving m => some m
  | _ => none

end Event

def places (log : List (Event α)) : List (Nat × Nat) := log.filterMap Event.place?

def traced (log : List (Event α)) : List (Nat × Tableau α) := log.filterMap Event.traced?

def initials (log : List (Event α)) : List (Tableau α) := log.filterMap Event.initial?

def stepsTaken (log : List (Event α)) : List (Step × Step) := log.filterMap Event.steps?

@[simp] theorem places_append (log more : List (Event α)) :
    places (log ++ more) = places log ++ places more := List.filterMap_append

@[simp] theorem traced_append (log more : List (Event α)) :
    traced (log ++ more) = traced log ++ traced more := List.filterMap_append

@[simp] theorem initials_append (log more : List (Event α)) :
    initials (log ++ more) = initials log ++ initials more := List.filterMap_append

@[simp] theorem stepsTaken_append (log more : List (Event α)) :
    stepsTaken (log ++ more) = stepsTaken log ++ stepsTaken more := List.filterMap_append

/-! ### the steps -/

/-- each pair begins where the one before it ended: from the first step to the last -/
def Linked : Step → List (Step × Step) → Step → Prop
  | first, [], last => first = last
  | first, (before, after) :: pairs, last => first = before ∧ Linked after pairs last

theorem Linked.append {a b c : Step} {pairs more : List (Step × Step)} (h : Linked a pairs b)
    (hmore : Linked b more c) : Linked a (pairs ++ more) c := by
  induction pairs generalizing a with
  | nil =>
    obtain rfl : a = b := h
    exact hmore
  | cons pair pairs ih => exact ⟨h.1, ih h.2⟩

namespace Solver

section
variable (m : Method) (before after : Step)

theorem linked_moved : Linked before (stepsTaken (moved (α := α) m before after)) after := by
  unfold moved
  split
  next h => exact h.symm
  next => exact ⟨rfl, rfl⟩

@[simp] theorem places_moved : places (moved (α := α) m before after) = [] := by
  unfold moved
  split <;> rfl

@[simp] theorem traced_moved : traced (moved (α := α) m before after) = [] := by
  unfold moved
  split <;> rfl

@[simp] theorem initials_moved : initials (moved (α := α) m before after) = [] := by
  unfold moved
  split <;> rfl

variable {m before after} in
theorem eq_stepped_of_mem_moved {e : Event α} (h : e ∈ moved m before after) :
    e = .stepped m before after := by
  unfold moved at h
  split at h
  · cases h
  · exact List.mem_singleton.1 h

end

end Solver

/-! ### the pivots -/

/-- The pivot records and the tableaux that follow them: each pivot is followed at once by the
tableau after it, under its number. -/
def Numbered (log : List (Event α)) : Prop :=
  ∀ front m row column rest, log = front ++ .pivotChosen m row column :: rest →
    ∃ t rest', rest = .pivoted ((places front).length + 1) t :: rest'

theorem numbered_nil : Numbered ([] : List (Event α)) := by
  intro front m row column rest h
  exact absurd h (by simp)

/-- what is reported after a numbered log is numbered if it is so once the pivots of the log are
counted -/
theorem Numbered.append {log more : List (Event α)} (h : Numbered log)
    (hmore : ∀ front m row column rest, more = front ++ .pivotChosen m row column :: rest →
      ∃ t rest', rest = .pivoted ((places (log ++ front)).length + 1) t :: rest') :
    Numbered (log ++ more) := by
  intro front m row column rest heq
  obtain ⟨gap, rfl, hgap⟩ | ⟨gap, rfl, hgap⟩ := List.append_eq_append_iff.1 heq
  · -- the pivot is reported in the second part
    exact hmore gap m row column rest hgap
  · cases gap with
    | nil =>
      have hfirst := hmore [] m row column rest hgap.symm
      rwa [List.append_nil, List.append_nil] at hfirst
    | cons e gap =>
      -- the pivot is in the first part, and so is the tableau after it
      obtain ⟨rfl, rfl⟩ := List.cons.inj hgap
      obtain ⟨t, rest', rfl⟩ := h front m row column gap rfl
      exact ⟨t, rest' ++ more, rfl⟩

theorem Numbered.append_quiet {log more : List (Event α)} (h : Numbered log)
    (hquiet : places more = []) : Numbered (log ++ more) := by
  apply h.append
  intro front m row column rest hmore
  rw [hmore, places_append] at hquiet
  exact absurd hquiet (by simp [places, Event.place?])

theorem Numbered.append_pivot {log : List (Event α)} (h : Numbered log) (m : Method)
    (row column : Nat) (t : Tableau α) :
    Numbered (log ++ [.pivotChosen m row column, .pivoted ((places log).length + 1) t]) := by
  apply h.append
  intro front m' row' column' rest hmore
  match front with
  | [] =>
    obtain ⟨-, rfl⟩ := List.cons.inj hmore
    exact ⟨t, [], by rw [List.append_nil]⟩
  | [_] => cases hmore
  | _ :: _ :: front => simp at hmore

section
variable [Scalar α]

namespace BasicTableau

/-- what the pivots at the places lead to one after the other, with the number of each -/
def replay (first : BasicTableau α) (ps : List (Nat × Nat)) : List (Nat × Tableau α) :=
  (List.range ps.length).map fun k => (k + 1, (first.pivots (ps.take (k + 1))).toTableau)

theorem pivots_concat (first : BasicTableau α) (ps : List (Nat × Nat)) (row column : Nat) :
    first.pivots (ps ++ [(row, column)]) = (first.pivots ps).pivot row column := by
  rw [pivots, List.foldl_append]
  rfl

theorem replay_concat (first : BasicTableau α) (ps : List (Nat × Nat)) (row column : Nat) :
    first.replay (ps ++ [(row, column)]) =
      first.replay ps ++ [(ps.length + 1, ((first.pivots ps).pivot row column).toTableau)] := by
  have hlast : (ps ++ [(row, column)]).take (ps.length + 1) = ps ++ [(row, column)] := by
    rw [List.take_of_length_le]
    rw [List.length_append, List.length_singleton]
  rw [replay, List.length_append, List.length_singleton, List.range_succ, List.map_append,
    List.map_singleton, hlast, pivots_concat, replay]
  congr 1
  apply List.map_congr_left
  intro k hk
  rw [List.take_append_of_le_length (List.mem_range.1 hk)]

end BasicTableau

namespace Solver

/-- Before there is a tableau, none is reported and no pivot.  From then on, the pivots in the log
lead from the first tableau in it to the tableau and the basis of the solver, by way of the tableaux
in the log. -/
structure Replays (log : List (Event α)) (s : Solver α) : Prop where
  length_places : (places log).length = s.iterations
  unbuilt : s.tableau? = none → initials log = [] ∧ places log = [] ∧ traced log = []
  built : ∀ t, s.tableau? = some t → ∃ first : BasicTableau α,
    s.problem.startingBasis = .ok first.basis ∧ initials log = [first.toTableau] ∧
      first.pivots (places log) = t ∧ traced log = first.replay (places log)

/-- where nothing about pivots and tableaux is reported, nothing about them may change -/
theorem Replays.append_quiet {log events : List (Event α)} {s s' : Solver α} (hs : Replays log s)
    (hplaces : places events = []) (htraced : traced events = []) (hinitials : initials events = [])
    (hiterations : s'.iterations = s.iterations) (htableau : s'.tableau? = s.tableau?)
    (hproblem : ∀ t, s.tableau? = some t → s'.problem = s.problem) :
    Replays (log ++ events) s' where
  length_places := by
    rw [places_append, hplaces, List.append_nil, hiterations]
    exact hs.length_places
  unbuilt h := by
    rw [places_append, traced_append, initials_append, hplaces, htraced, hinitials]
    simp only [List.append_nil]
    exact hs.unbuilt (htableau.symm.trans h)
  built t h := by
    rw [htableau] at h
    rw [places_append, traced_append, initials_append, hplaces, htraced, hinitials, hproblem t h]
    simp only [List.append_nil]
    exact hs.built t h

/-- the work of a transition is reported as it was done -/
theorem Works.replays {log events : List (Event α)} {s s' : Solver α} (h : Works s events s')
    (hs : Replays log s) : Replays (log ++ events) s' := by
  cases h with
  | stay => exact hs.append_quiet rfl rfl rfl rfl rfl fun _ _ => rfl
  | transform hstage =>
    have hnone : s.tableau? = none := by rw [tableau?, hstage]; rfl
    refine hs.append_quiet rfl rfl rfl rfl hnone.symm ?_
    intro t ht
    rw [hnone] at ht
    cases ht
  | @build basis hstage hstart hbasis =>
    obtain ⟨hinitials, hplaces, htraced⟩ := hs.unbuilt (by rw [tableau?, hstage]; rfl)
    refine ⟨?_, fun h => absurd h (Option.some_ne_none _), ?_⟩
    · rw [places_append, ← hs.length_places]
      exact congrArg List.length (List.append_nil _)
    · intro t ht
      cases ht
      refine ⟨s.problem.pricedOut basis, hbasis, ?_⟩
      rw [places_append, traced_append, initials_append, hplaces, htraced, hinitials]
      exact ⟨rfl, rfl, rfl⟩
  | finish hstage =>
    exact hs.append_quiet rfl rfl rfl rfl (tableau?_of_pivoting hstage).symm fun _ _ => rfl
  | exhaust hstage =>
    exact hs.append_quiet rfl rfl rfl rfl (tableau?_of_pivoting hstage).symm fun _ _ => rfl
  | @pivot t iterated row column hstage =>
    obtain ⟨first, hbasis, hinitials, hlast, htraced⟩ := hs.built t (tableau?_of_pivoting hstage)
    refine ⟨?_, fun h => absurd h (Option.some_ne_none _), ?_⟩
    · rw [places_append, List.length_append, hs.length_places]
      rfl
    · intro u hu
      cases hu
      have hplace : places [Event.pivotChosen s.method row column,
        .pivoted (s.iterations + 1) (t.pivot row column).toTableau] = [(row, column)] := rfl
      refine ⟨first, hbasis, ?_, ?_, ?_⟩
      · rw [initials_append, hinitials]
        rfl
      · rw [places_append, hplace, BasicTableau.pivots_concat, hlast]
      · rw [traced_append, places_append, hplace, BasicTableau.replay_concat, hlast, htraced,
          hs.length_places]
        rfl

theorem Works.numbered {log events : List (Event α)} {s s' : Solver α} (h : Works s events s')
    (hlog : Numbered log) (hcount : (places log).length = s.iterations) :
    Numbered (log ++ events) := by
  cases h with
  | pivot =>
    rw [← hcount]
    exact hlog.append_pivot s.method _ _ _
  | _ => exact hlog.append_quiet rfl

/-! ### the failure -/

/-- A warning is the last record, and is there exactly if the solver has failed. -/
structure Warns (m : Method) (log : List (Event α)) (s : Solver α) : Prop where
  none : s.failure = none → ∀ e ∈ log, e.level ≠ .warn
  some : ∀ failure, s.failure = some failure → ∃ front,
    log = front ++ [.failed m s.currentStep failure] ∧ ∀ e ∈ front, e.level ≠ .warn

/-- a transition warns of nothing and is signed by its method -/
theorem Works.level_method {events : List (Event α)} {s s' : Solver α} (h : Works s events s') :
    ∀ e ∈ events, e.level ≠ .warn ∧ ∀ m, e.method? = some m → m = s.method := by
  cases h with
  | stay => exact nofun
  | finish => exact nofun
  | exhaust => exact nofun
  | pivot =>
    intro e he
    simp only [List.mem_cons, List.not_mem_nil, or_false] at he
    obtain rfl | rfl := he
    · exact ⟨nofun, fun _ hm => (Option.some.inj hm).symm⟩
    · exact ⟨nofun, nofun⟩
  | _ =>
    intro e he
    obtain rfl := List.mem_singleton.1 he
    exact ⟨nofun, nofun⟩

/-! ### the whole log -/

/-- what a log of all levels tells of the solver -/
structure IsTrace (m : Method) (log : List (Event α)) (s : Solver α) : Prop where
  method_eq : s.method = m
  /-- every record that names a method names this one -/
  signed : ∀ e ∈ log, ∀ m', e.method? = some m' → m' = m
  numbered : Numbered log
  replays : Replays log s
  linked : Linked .init (stepsTaken log) s.currentStep
  warns : Warns m log s

variable {m : Method} {log : List (Event α)} {s : Solver α}

theorem isTrace_start (m : Method) (p : Problem α) (tolerance : α) :
    IsTrace m [] (start m p tolerance) where
  method_eq := rfl
  signed := nofun
  numbered := numbered_nil
  replays := ⟨rfl, fun _ => ⟨rfl, rfl, rfl⟩, nofun⟩
  linked := rfl
  warns := ⟨fun _ => nofun, nofun⟩

theorem IsTrace.fail (hs : IsTrace m log s) (hnone : s.failure = none) (e : Failure α) :
    IsTrace m (log ++ [.failed s.method s.currentStep e]) { s with failure := some e } where
  method_eq := hs.method_eq
  signed := by
    intro e' he'
    obtain he' | he' := List.mem_append.1 he'
    · exact hs.signed e' he'
    · obtain rfl := List.mem_singleton.1 he'
      intro m' hm'
      exact (Option.some.inj hm').symm.trans hs.method_eq
  numbered := hs.numbered.append_quiet rfl
  replays := hs.replays.append_quiet rfl rfl rfl rfl rfl fun _ _ => rfl
  linked := by
    rw [stepsTaken_append]
    exact hs.linked.append rfl
  warns := by
    refine ⟨nofun, ?_⟩
    intro failure hfailure
    cases hfailure
    rw [hs.method_eq]
    exact ⟨log, rfl, hs.warns.none hnone⟩

theorem IsTrace.work {events : List (Event α)} {s' : Solver α} (hs : IsTrace m log s)
    (hnone : s.failure = none) (h : Works s events s') :
    IsTrace m (log ++ (events ++ moved s.method s.currentStep s'.currentStep)) s' := by
  have hquiet : ∀ e ∈ events ++ moved s.method s.currentStep s'.currentStep,
      e.level ≠ .warn ∧ ∀ m', e.method? = some m' → m' = s.method := by
    intro e he
    obtain he | he := List.mem_append.1 he
    · exact h.level_method e he
    · rw [eq_stepped_of_mem_moved he]
      exact ⟨nofun, fun _ hm => (Option.some.inj hm).symm⟩
  have hsteps : stepsTaken events = [] := by cases h <;> rfl
  refine ⟨h.transition.method_eq.trans hs.method_eq, ?_, ?_, ?_, ?_, ?_, ?_⟩
  · intro e he
    obtain he | he := List.mem_append.1 he
    · exact hs.signed e he
    · rw [← hs.method_eq]
      exact (hquiet e he).2
  · rw [← List.append_assoc]
    exact (h.numbered hs.numbered hs.replays.length_places).append_quiet (places_moved ..)
  · rw [← List.append_assoc]
    exact (h.replays hs.replays).append_quiet (places_moved ..) (traced_moved ..)
      (initials_moved ..) rfl rfl fun _ _ => rfl
  · rw [stepsTaken_append, stepsTaken_append, hsteps]
    exact hs.linked.append (linked_moved ..)
  · intro _ e he
    obtain he | he := List.mem_append.1 he
    · exact hs.warns.none hnone e he
    · exact (hquiet e he).1
  · intro failure hfailure
    rw [h.failure_eq, hnone] at hfailure
    cases hfailure

theorem IsTrace.step (hs : IsTrace m log s) : IsTrace m (log ++ s.step.2) s.step.1 := by
  obtain ⟨-, hstep⟩ | ⟨hnone, e, hstep⟩ | ⟨hnone, next, events, hworks, hstep⟩ := s.step_reports
  · rw [hstep, List.append_nil]
    exact hs
  · rw [hstep]
    exact hs.fail hnone e
  · rw [hstep]
    exact hs.work hnone hworks

theorem IsTrace.withTolerance (hs : IsTrace m log s) (tolerance : α) :
    IsTrace m log (s.withTolerance tolerance) :=
  ⟨hs.method_eq, hs.signed, hs.numbered, ⟨hs.replays.1, hs.replays.2, hs.replays.3⟩, hs.linked,
    ⟨hs.warns.1, hs.warns.2⟩⟩

theorem IsTrace.withMaxIterations (hs : IsTrace m log s) (limit : Option Nat) :
    IsTrace m log (s.withMaxIterations limit) :=
  ⟨hs.method_eq, hs.signed, hs.numbered, ⟨hs.replays.1, hs.replays.2, hs.replays.3⟩, hs.linked,
    ⟨hs.warns.1, hs.warns.2⟩⟩

/-- the log of any calls is a trace of what they did, whatever the tolerances and the limits -/
theorem calls_isTrace (m : Method) (p : Problem α) (tolerance : α) (limit : Option Nat)
    (cs : List (Call α)) :
    IsTrace m (((start m p tolerance).withMaxIterations limit).calls cs).2
      (((start m p tolerance).withMaxIterations limit).calls cs).1 := by
  have hstart := (isTrace_start m p tolerance).withMaxIterations limit
  exact calls_reports_induction (fun _ _ hs => hs.step) (fun _ _ t hs => hs.withTolerance t)
    (fun _ _ l hs => hs.withMaxIterations l) hstart cs

end Solver

end

/-! ### logs over doubles -/

/-- The log of any calls, whatever the tolerances and the limits.  The pivots in it are as many as
the solver counts, each followed at once by its tableau; done in the first tableau, they lead through
the tableaux in the log to that of the solver and its basis; the steps in it lead from the first to
the present one; and it warns at the end of it, and nowhere else, exactly if the solver has failed.
Open down to the last level, it has a line for each record, which tells all that the record holds,
the entries of tableaux included.  A solve among the calls does and reports what a run of as many
steps does. -/
theorem Solver.log_isTrace (m : Method) (p : Problem Float) (tolerance : Float)
    (limit : Option Nat) (cs : List (Call Float)) :
    let (s, log) := ((Solver.start m p tolerance).withMaxIterations limit).calls cs
    IsTrace m log s ∧
      (logLines Level.trace.rank log = log.map Event.line ∧ ∀ e ∈ log, e.Worded) ∧
        ∀ n, (s.solve n).1 = (s.run n).1 ∧ s.solveEvents n = (s.run n).2 := by
  refine ⟨calls_isTrace m p tolerance limit cs, ⟨logLines_trace _, fun e _ => e.worded⟩, ?_⟩
  intro n
  exact ⟨(solve_eq_run _ n).1, solveEvents_eq _ n⟩

end LinearProgram
