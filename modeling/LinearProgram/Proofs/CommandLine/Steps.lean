import LinearProgram.Proofs.Checked.Solver
import LinearProgram.Proofs.CommandLine.Ends
import LinearProgram.Proofs.CommandLine.Lines
import LinearProgram.Proofs.Json.Form

/-!
# Solving step by step and at once

The two loops make the same moves.  So they end together, report the same, and are stopped by the
same failure; and what is shown last of a solve step by step is the solution that is shown of a solve
at once, with the slack variables too.

* `solveByStep_of_failed`, `solveByStep_of_solved`   the loop step by step, from the answer of a solve;
* `Solver.Wide`                 a tableau has a column for each variable of the problem;
* `LastDocument`, `LastSection` what is shown last;
* `steps_agree`.
-/

namespace LinearProgram

namespace Solver

variable {α : Type} [Scalar α] {s : Solver α}

theorem currentStep_eq_complete_iff :
    s.currentStep = .complete ↔ ∃ solution, s.solution? = some solution := by
  rw [currentStep, solution?]
  cases s.stage with
  | initial => simp [Stage.step]
  | transformed => simp [Stage.step]
  | pivoting t iterated => cases iterated <;> simp [Stage.step]
  | complete t => simp [Stage.step]

/-! ### the variables of a problem -/

omit [Scalar α] in
/-- The problem has so many variables, and the tableau the counts of the problem. -/
def Wide (count : Nat) (s : Solver α) : Prop := count ≤ s.problem.variableCount ∧ s.Shaped

theorem Wide.transition {count : Nat} {s' : Solver α} (h : s.Wide count) (hstep : Transition s s') :
    s'.Wide count := by
  refine ⟨?_, h.2.transition hstep⟩
  cases hstep with
  | transform =>
    refine h.1.trans ?_
    show s.problem.variableCount ≤ (s.method.transform s.problem).variableCount
    rw [Problem.variableCount, Problem.variableCount, Method.objective_transform,
      List.length_append]
    exact Nat.le_add_right _ _
  | _ => exact h.1

theorem Wide.le_length_values {count : Nat} (h : s.Wide count) {solution : Solution α}
    (hsolution : s.solution? = some solution) : count ≤ solution.values.length := by
  rw [solution?] at hsolution
  split at hsolution
  next t hstage =>
    cases hsolution
    obtain ⟨-, -, hm⟩ := h.2 t (tableau?_of_complete hstage)
    rw [BasicTableau.solution, BasicTableau.length_basicValues, hm]
    exact h.1
  next => cases hsolution

/-- where a solve ends, there is a column for each variable -/
theorem Wide.solve {count : Nat} (h : s.Wide count) (n : Nat) : (s.solve n).1.Wide count := by
  rw [(s.solve_eq_run n).1]
  exact run_induction (fun s hs => hs.transition (transition_step s)) h n

end Solver

namespace CommandLine

variable {format : Format} {s next last : Solver Float} {n : Nat}

/-! ### one round -/

theorem solveByStep_of_solution {solution : Solution Float} (h : s.solution? = some solution) :
    solveByStep format (n + 1) s = some ⟨[], [], none⟩ := by
  rw [solveByStep, if_pos (Solver.currentStep_eq_complete_iff.2 ⟨solution, h⟩)]

theorem currentStep_ne_complete (h : s.solution? = none) : s.currentStep ≠ .complete := by
  rw [Ne, Solver.currentStep_eq_complete_iff, h]
  rintro ⟨_, ⟨⟩⟩

theorem solveByStep_of_move_error {e : Failure Float} (h : s.solution? = none)
    (hmove : s.move = (next, .error e)) :
    solveByStep format (n + 1) s = some ⟨[], s.step.2, some (stopped next e)⟩ := by
  rw [solveByStep, if_neg (currentStep_ne_complete h), hmove]

theorem solveByStep_of_move_ok {step : Step} (h : s.solution? = none)
    (hmove : s.move = (next, .ok step)) :
    solveByStep format (n + 1) s =
      (solveByStep format n next).map (Output.after ⟨showStep format next, s.step.2, none⟩) := by
  rw [solveByStep, if_neg (currentStep_ne_complete h), hmove]

/-! ### the loop from the answer of the solve -/

section
variable (format : Format)

theorem solveByStep_of_none (h : (s.solve n).2 = none) : solveByStep format n s = none := by
  induction n generalizing s with
  | zero => rfl
  | succ n ih =>
    rw [Solver.solve] at h
    cases hsolution : s.solution? with
    | some solution =>
      rw [hsolution] at h
      cases h
    | none =>
      rw [hsolution] at h
      cases hmove : s.move with
      | mk next result =>
        rw [hmove] at h
        cases result with
        | error e => cases h
        | ok step => rw [solveByStep_of_move_ok hsolution hmove, ih h, Option.map_none]

/-- a failure stops both loops after the same moves -/
theorem solveByStep_of_failed {e : Failure Float} (h : s.solve n = (last, some (.error e))) :
    ∃ printed, solveByStep format n s =
      some ⟨printed, s.solveEvents n, some (stopped last e)⟩ := by
  induction n generalizing s with
  | zero => cases h
  | succ n ih =>
    rw [Solver.solve] at h
    rw [Solver.solveEvents]
    cases hsolution : s.solution? with
    | some solution =>
      rw [hsolution] at h
      cases h
    | none =>
      rw [hsolution] at h
      cases hmove : s.move with
      | mk next result =>
        rw [hmove] at h
        cases result with
        | error e' =>
          cases h
          exact ⟨[], solveByStep_of_move_error hsolution hmove⟩
        | ok step =>
          obtain ⟨printed, hprinted⟩ := ih h
          rw [solveByStep_of_move_ok hsolution hmove, hprinted]
          exact ⟨_, rfl⟩

/-- a solution ends both loops after the same moves, and its step is shown last -/
theorem solveByStep_of_solved {solution : Solution Float} (hopen : s.solution? = none)
    (h : s.solve n = (last, some (.ok solution))) : last.solution? = some solution ∧
      ∃ earlier, solveByStep format n s =
        some ⟨earlier ++ showStep format last, s.solveEvents n, none⟩ := by
  induction n generalizing s with
  | zero => cases h
  | succ n ih =>
    rw [Solver.solve, hopen] at h
    rw [Solver.solveEvents, hopen]
    cases hmove : s.move with
    | mk next result =>
      rw [hmove] at h
      cases result with
      | error e => cases h
      | ok step =>
        rw [solveByStep_of_move_ok hopen hmove]
        dsimp only at h ⊢
        cases hnext : next.solution? with
        | none =>
          obtain ⟨hlast, earlier, hearlier⟩ := ih hnext h
          refine ⟨hlast, showStep format next ++ earlier, ?_⟩
          rw [hearlier, List.append_assoc]
          rfl
        | some found =>
          cases n with
          | zero => cases h
          | succ n =>
            rw [Solver.solve, hnext] at h
            cases h
            refine ⟨hnext, [], ?_⟩
            rw [solveByStep_of_solution hnext, Solver.solveEvents, hnext]
            simp [Output.after]

/-! ### the solve at once from its answer -/

variable (count : Nat)

theorem solveAtOnce_of_none (h : (s.solve n).2 = none) : solveAtOnce format count n s = none := by
  cases hsolve : s.solve n with
  | mk last answer =>
    rw [hsolve] at h
    obtain rfl : answer = none := h
    rw [solveAtOnce, hsolve]

theorem solveAtOnce_of_failed {e : Failure Float} (h : s.solve n = (last, some (.error e))) :
    solveAtOnce format count n s = some ⟨[], s.solveEvents n, some (stopped last e)⟩ := by
  rw [solveAtOnce, h]

theorem solveAtOnce_of_solved {solution : Solution Float}
    (h : s.solve n = (last, some (.ok solution))) : solveAtOnce format count n s =
      some ⟨showSolution format count last.iterations solution, s.solveEvents n, none⟩ := by
  rw [solveAtOnce, h]

end

/-! ### what is shown last -/

/-- The last document of one output is an object, whose only field `Solution` holds the only
document of the other. -/
def LastDocument (o o' : Output) : Prop :=
  ∃ text text' earlier v, o'.printed = [text'] ∧ o.printed = earlier ++ [text] ∧
    Json.read? text'.toList = some v ∧
    Json.read? text.toList = some (.object [("Solution".toList, v)])

/-- The last lines of one output are a heading, lines of variables that start with the `count` lines
in the other output, and the same line of the objective. -/
def LastSection (count : Nat) (o o' : Output) : Prop :=
  ∃ status values others objective earlier, values.length = count ∧
    (∀ line ∈ values ++ others, ValueLine line) ∧ ObjectiveLine objective ∧
    o'.stdout.toList = unlines (status :: (values ++ [objective])) ∧
    o.stdout.toList = unlines (earlier ++
      "== Solution is complete.".toList :: (values ++ others ++ [objective, []]))

theorem read?_prettyJson {v : Json} (h : v.Writable) : Json.read? (prettyJson v).toList = some v := by
  rw [prettyJson, String.toList_ofList]
  exact h.spells_pretty.read?_eq

section
variable {solution : Solution Float} (hsolution : last.solution? = some solution) {o o' : Output}
  {earlier : List String} {count : Nat}
include hsolution

theorem snapshot?_of_solution : last.snapshot? = some (.solution solution) ∧
    last.currentStep = .complete := by
  refine ⟨?_, Solver.currentStep_eq_complete_iff.2 ⟨solution, hsolution⟩⟩
  rw [Solver.solution?] at hsolution
  rw [Solver.snapshot?]
  split at hsolution
  next t hstage =>
    cases hsolution
    rw [hstage]
  next => cases hsolution

theorem lastDocument_of_solution (hsteps : o.printed = earlier ++ showStep .json last)
    (honce : o'.printed = showSolution .json count last.iterations solution) :
    LastDocument o o' := by
  have hshown : showStep .json last = [prettyJson (Snapshot.solution solution).toJson] := by
    rw [showStep, (snapshot?_of_solution hsolution).1]
    rfl
  exact ⟨_, _, earlier, _, honce, hsteps.trans (congrArg _ hshown),
    read?_prettyJson (JsonForm.writable_solution NumberFormat.lawful_shortest solution),
    read?_prettyJson (JsonForm.writable_snapshot (.solution solution))⟩

theorem lastSection_of_solution (hcount : count ≤ solution.values.length)
    (hsteps : o.printed = earlier ++ showStep .pretty last)
    (honce : o'.printed = showSolution .pretty count last.iterations solution) :
    LastSection count o o' := by
  obtain ⟨hsnapshot, hcomplete⟩ := snapshot?_of_solution hsolution
  obtain ⟨others, hothers⟩ := Solution.exists_valueLines solution.values count
  have hshown : showStep .pretty last =
      ["== Solution is complete.", solution.report none, ""] := by
    rw [showStep, hsnapshot, hcomplete]
    rfl
  refine ⟨(s!"Status: OPTIMAL ({last.iterations} iterations)").toList,
    Solution.valueLines (solution.values.take count), others, solution.objectiveLine,
    earlier.map String.toList, ?_, ?_, solution.objectiveLine_spec, ?_, ?_⟩
  · rw [Solution.length_valueLines, List.length_take, Nat.min_eq_left hcount]
  · rw [← hothers]
    exact Solution.valueLine_of_mem
  · rw [Output.toList_stdout, honce, showSolution, List.map_cons, List.map_cons, List.map_nil,
      Solution.toList_report_some]
    simp [unlines]
  · rw [Output.toList_stdout, hsteps, hshown, List.map_append, unlines_append, unlines_append,
      List.map_cons, List.map_cons, List.map_cons, List.map_nil, Solution.toList_report_none,
      hothers]
    simp [unlines]

end

/-! ### both loops -/

/-- Both loops go on, or both have an output.  These have the same reports and the same failure; with
none, the last solver is shown on one side, and its solution on the other. -/
theorem solve_agree (format : Format) (hopen : s.solution? = none) (count n : Nat) :
    (solve n s count true format = none ∧ solve n s count false format = none) ∨
    ∃ o o', solve n s count true format = some o ∧ solve n s count false format = some o' ∧
      o.events = o'.events ∧ o.trouble = o'.trouble ∧
      (o.trouble = none → ∃ last solution earlier, (s.solve n).1 = last ∧
        last.solution? = some solution ∧ o.printed = earlier ++ showStep format last ∧
        o'.printed = showSolution format count last.iterations solution) := by
  have hsteps : ∀ shown, solveByStep format n s = shown → solve n s count true format =
      shown.map (.after ⟨[], [.solving s.method], none⟩) :=
    fun shown h => congrArg (Option.map _) h
  have honce : ∀ shown, solveAtOnce format count n s = shown → solve n s count false format =
      shown.map (.after ⟨[], [.solving s.method], none⟩) :=
    fun shown h => congrArg (Option.map _) h
  cases hsolve : s.solve n with
  | mk last answer =>
    match answer with
    | none =>
      have hnone : (s.solve n).2 = none := congrArg Prod.snd hsolve
      exact Or.inl ⟨hsteps _ (solveByStep_of_none format hnone),
        honce _ (solveAtOnce_of_none format count hnone)⟩
    | some (.error e) =>
      obtain ⟨printed, hprinted⟩ := solveByStep_of_failed format hsolve
      exact Or.inr ⟨_, _, hsteps _ hprinted, honce _ (solveAtOnce_of_failed format count hsolve),
        rfl, rfl, nofun⟩
    | some (.ok solution) =>
      obtain ⟨hlast, earlier, hearlier⟩ := solveByStep_of_solved format hopen hsolve
      exact Or.inr ⟨_, _, hsteps _ hearlier, honce _ (solveAtOnce_of_solved format count hsolve),
        rfl, rfl, fun _ => ⟨last, solution, earlier, rfl, hlast, rfl, rfl⟩⟩

/-- What a run step by step and a run at once have in common: the exit code, the text of the failure
and the log; and, if they succeed, what is shown last. -/
structure Agree (source : Except String String) (format : Format) (rank : Nat) (o o' : Output) :
    Prop where
  code : o.code = o'.code
  stderr : o.stderr = o'.stderr
  log : logLines rank o.events = logLines rank o'.events
  json : o.code = 0 → format = .json → LastDocument o o'
  pretty : o.code = 0 → format = .pretty → ∃ text p, source = .ok text ∧
    Problem.read text = .ok p ∧ LastSection p.variableCount o o'

/-- a command that fails before it solves -/
theorem agree_failing (source : Except String String) (format : Format) (rank : Nat)
    (context cause : String) :
    Agree source format rank (.failing context cause) (.failing context cause) where
  code := rfl
  stderr := rfl
  log := rfl
  json := nofun
  pretty := nofun

section
variable (source : Except String String) (file : String) (method : Method) (format : Format)
  (limit : Option Nat) (rank : Nat)

theorem run_agree (n : Nat) :
    (run n ⟨.solve method true format limit, file, rank⟩ source = none ∧
      run n ⟨.solve method false format limit, file, rank⟩ source = none) ∨
    ∃ o o', run n ⟨.solve method true format limit, file, rank⟩ source = some o ∧
      run n ⟨.solve method false format limit, file, rank⟩ source = some o' ∧
      Agree source format rank o o' := by
  cases source with
  | error cause => exact Or.inr ⟨_, _, rfl, rfl, agree_failing _ _ _ _ _⟩
  | ok text =>
    cases hread : Problem.read text with
    | error e =>
      refine Or.inr ⟨_, _, ?_, ?_, agree_failing _ _ _ ("Parsing " ++ file) e.message⟩
      · rw [run, hread]
      · rw [run, hread]
    | ok p =>
      rw [run_of_read hread, run_of_read hread]
      -- the solver is open, and as wide as its problem
      have hopen : (newSolver method limit p).solution? = none := rfl
      have hwide : (newSolver method limit p).Wide p.variableCount :=
        ⟨Nat.le_refl _, Solver.shaped_start method p tolerance⟩
      obtain hnone | ⟨o, o', ho, ho', hevents, htrouble, hshown⟩ :=
        solve_agree format hopen p.variableCount n
      · exact Or.inl hnone
      refine Or.inr ⟨o, o', ho, ho', ?_, ?_, ?_, ?_, ?_⟩
      · rw [Output.code, Output.code, htrouble]
      · rw [Output.stderr, Output.stderr, htrouble]
      · rw [hevents]
      · rintro hcode rfl
        obtain ⟨last, solution, earlier, -, hlast, hsteps, honce⟩ :=
          hshown (Output.code_eq_zero_iff.1 hcode)
        exact lastDocument_of_solution hlast hsteps honce
      · rintro hcode rfl
        obtain ⟨last, solution, earlier, hsolve, hlast, hsteps, honce⟩ :=
          hshown (Output.code_eq_zero_iff.1 hcode)
        have hcount := (hsolve ▸ hwide.solve n).le_length_values hlast
        exact ⟨text, p, rfl, hread, lastSection_of_solution hlast hcount hsteps honce⟩

/-- A solve shown step by step ends exactly if the solve at once does, and their outputs agree, for
every content of the file. -/
theorem steps_agree :
    ((∃ o, EndsWith ⟨.solve method true format limit, file, rank⟩ source o) ↔
      ∃ o', EndsWith ⟨.solve method false format limit, file, rank⟩ source o') ∧
    ∀ o o', EndsWith ⟨.solve method true format limit, file, rank⟩ source o →
      EndsWith ⟨.solve method false format limit, file, rank⟩ source o' →
      Agree source format rank o o' := by
  refine ⟨⟨?_, ?_⟩, ?_⟩
  · rintro ⟨o, n, hn⟩
    obtain ⟨hnone, -⟩ | ⟨_, o', -, ho', -⟩ := run_agree source file method format limit rank n
    · exact absurd (hnone.symm.trans hn) nofun
    · exact ⟨o', n, ho'⟩
  · rintro ⟨o', n, hn⟩
    obtain ⟨-, hnone⟩ | ⟨o, _, ho, -, -⟩ := run_agree source file method format limit rank n
    · exact absurd (hnone.symm.trans hn) nofun
    · exact ⟨o, n, ho⟩
  · rintro o o' ⟨m, hm⟩ ⟨n, hn⟩
    have hleft := run_le hm (Nat.le_max_left m n)
    have hright := run_le hn (Nat.le_max_right m n)
    obtain ⟨hnone, -⟩ | ⟨_, _, ho, ho', hagree⟩ :=
      run_agree source file method format limit rank (max m n)
    · exact absurd (hnone.symm.trans hleft) nofun
    · obtain rfl := Option.some.inj (hleft.symm.trans ho)
      obtain rfl := Option.some.inj (hright.symm.trans ho')
      exact hagree

end

/-- a right side below zero, so that a row is turned and there is a surplus -/
def smallTask : String := "-1 -1 <= -2\n1 0 <= 3\n2 1 min"

theorem steps_agree_smallTask : ∃ o o',
    EndsWith ⟨.solve .dual true .pretty none, "task.txt", 5⟩ (.ok smallTask) o ∧
    EndsWith ⟨.solve .dual false .pretty none, "task.txt", 5⟩ (.ok smallTask) o' ∧
    Agree (.ok smallTask) .pretty 5 o o' ∧ o.code = 0 := by
  have hrun : (run 10 ⟨.solve .dual true .pretty none, "task.txt", 5⟩ (.ok smallTask)).map
      Output.code = some 0 := by decide +kernel
  obtain ⟨o, ho, hcode⟩ := Option.map_eq_some_iff.1 hrun
  obtain ⟨hends, hagree⟩ := steps_agree (.ok smallTask) "task.txt" .dual .pretty none 5
  obtain ⟨o', ho'⟩ := hends.1 ⟨o, 10, ho⟩
  exact ⟨o, o', ⟨10, ho⟩, ho', hagree o o' ⟨10, ho⟩ ho', hcode⟩

end CommandLine
end LinearProgram
