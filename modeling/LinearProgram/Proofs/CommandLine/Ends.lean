import LinearProgram.CommandLine.Run
import LinearProgram.Proofs.Solver.Limit

/-!
# How a command ends

A command ends with an output if some number of steps is enough for it, and then no more steps
change it.  So a command has one output at most.

* `Solver.solve_le`, `Solver.solveEvents_le`   more rounds change neither the answer nor the reports;
* `solveByStep_le`, `solveAtOnce_le`           nor what is shown of a solve;
* `EndsWith`, `EndsWith.unique`                the output of a command.
-/

namespace LinearProgram

namespace Solver

variable {α : Type} [Scalar α] {s last : Solver α} {answer : Except (Failure α) (Solution α)}
  {m n : Nat}

theorem solve_le (h : s.solve m = (last, some answer)) (hle : m ≤ n) :
    s.solve n = (last, some answer) := by
  obtain ⟨moves, hmoves, hends⟩ := exists_ends_of_solve h
  rcases Nat.lt_or_eq_of_le hle with hlt | rfl
  · exact hends.solve_eq (by omega)
  · exact h

theorem solveEvents_le (h : s.solve m = (last, some answer)) (hle : m ≤ n) :
    s.solveEvents n = s.solveEvents m := by
  induction m generalizing s n with
  | zero => cases h
  | succ m ih =>
    obtain ⟨n, rfl⟩ := Nat.exists_eq_add_of_le' (Nat.one_le_of_lt hle)
    rw [solve] at h
    rw [solveEvents, solveEvents]
    cases hsolution : s.solution? with
    | some solution => rfl
    | none =>
      rw [hsolution] at h
      cases hmove : s.move with
      | mk next result =>
        cases result with
        | error e => rfl
        | ok step =>
          rw [hmove] at h
          exact congrArg (s.step.2 ++ ·) (ih h (Nat.succ_le_succ_iff.1 hle))

end Solver

namespace CommandLine

variable {format : Format} {s : Solver Float} {count m n : Nat} {o o' : Output} {i : Invocation}
  {source : Except String String}

/-! ### more steps change nothing -/

theorem solveByStep_le (h : solveByStep format m s = some o) (hle : m ≤ n) :
    solveByStep format n s = some o := by
  induction m generalizing s n o with
  | zero => cases h
  | succ m ih =>
    obtain ⟨n, rfl⟩ := Nat.exists_eq_add_of_le' (Nat.one_le_of_lt hle)
    rw [solveByStep] at h ⊢
    by_cases hcomplete : s.currentStep = .complete
    · rwa [if_pos hcomplete] at h ⊢
    · rw [if_neg hcomplete] at h ⊢
      cases hmove : s.move with
      | mk next result =>
        rw [hmove] at h
        cases result with
        | error e => exact h
        | ok step =>
          obtain ⟨rest, hrest, rfl⟩ := Option.map_eq_some_iff.1 h
          exact Option.map_eq_some_iff.2 ⟨rest, ih hrest (Nat.succ_le_succ_iff.1 hle), rfl⟩

theorem solveAtOnce_le (h : solveAtOnce format count m s = some o) (hle : m ≤ n) :
    solveAtOnce format count n s = some o := by
  rw [solveAtOnce] at h ⊢
  cases hsolve : s.solve m with
  | mk last answer =>
    rw [hsolve] at h
    cases answer with
    | none => cases h
    | some answer =>
      rw [Solver.solve_le hsolve hle, Solver.solveEvents_le hsolve hle]
      exact h

theorem solve_le {steps : Bool} (h : solve m s count steps format = some o) (hle : m ≤ n) :
    solve n s count steps format = some o := by
  obtain ⟨shown, hshown, rfl⟩ := Option.map_eq_some_iff.1 h
  refine Option.map_eq_some_iff.2 ⟨shown, ?_, rfl⟩
  cases steps with
  | true => exact solveByStep_le hshown hle
  | false => exact solveAtOnce_le hshown hle

theorem showDual_le {p : Problem Float} {alsoSolve : Bool}
    (h : showDual m p alsoSolve format = some o) (hle : m ≤ n) :
    showDual n p alsoSolve format = some o := by
  rw [showDual] at h ⊢
  cases hdual : Reformulation.dual.apply p with
  | error e => rwa [hdual] at h
  | ok built =>
    rw [hdual] at h
    cases alsoSolve with
    | false => exact h
    | true =>
      obtain ⟨solved, hsolved, rfl⟩ := Option.map_eq_some_iff.1 h
      exact Option.map_eq_some_iff.2 ⟨solved, solve_le hsolved hle, rfl⟩

theorem perform_le {command : Command} {file : String} {p : Problem Float}
    (h : perform m command file p = some o) (hle : m ≤ n) :
    perform n command file p = some o := by
  cases command with
  | solve method steps format limit => exact solve_le h hle
  | dual alsoSolve format => exact showDual_le h hle
  | standard method => exact h
  | check => exact h

theorem run_of_read {text : String} {p : Problem Float} (h : Problem.read text = .ok p) :
    run n i (.ok text) = perform n i.command i.file p := by
  rw [run, h]

theorem run_le (h : run m i source = some o) (hle : m ≤ n) : run n i source = some o := by
  cases source with
  | error cause => exact h
  | ok text =>
    cases hread : Problem.read text with
    | error e =>
      rw [run, hread] at h ⊢
      exact h
    | ok p =>
      rw [run_of_read hread] at h ⊢
      exact perform_le h hle

/-! ### outputs -/

theorem Output.code_eq_zero_iff : o.code = 0 ↔ o.trouble = none := by
  rw [Output.code]
  cases o.trouble <;> simp

/-- The command ends with this output on a file that holds the text, or cannot be read. -/
def EndsWith (i : Invocation) (source : Except String String) (o : Output) : Prop :=
  ∃ fuel, run fuel i source = some o

theorem EndsWith.unique (h : EndsWith i source o) (h' : EndsWith i source o') : o = o' := by
  obtain ⟨m, hm⟩ := h
  obtain ⟨n, hn⟩ := h'
  have hleft := run_le hm (Nat.le_max_left m n)
  have hright := run_le hn (Nat.le_max_right m n)
  exact Option.some.inj (hleft.symm.trans hright)

end CommandLine

end LinearProgram
