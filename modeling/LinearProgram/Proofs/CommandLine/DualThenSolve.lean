import LinearProgram.Proofs.CommandLine.Ends
import LinearProgram.Proofs.Problem.RoundTrip

/-!
# The dual, printed and solved

The dual that is printed is a file again, of the same problem bit for bit.  So to print the dual and
solve it is to print it, and to solve the file that was printed; and the dual of that file is the
prepared form of the problem.

* `exists_dual_of_ends`      what is printed where the dual is built;
* `run_dual_solve`           the command with the solve, from the command that solves the print;
* `dual_then_solve`.
-/

namespace LinearProgram

/-- no event is an error: what a command fails with is not logged -/
theorem Event.rank_error_lt (e : Event Float) : Level.error.rank < e.level.rank := by
  cases e <;> simp [Event.level, Level.rank]

/-- a log that is open to errors only is empty -/
theorem logLines_error (events : List (Event Float)) : logLines Level.error.rank events = [] := by
  rw [logLines, List.filter_eq_nil_iff.2, List.map_nil]
  intro e _
  simpa using e.rank_error_lt

namespace CommandLine

theorem Output.stdout_after (first second : Output) :
    (first.after second).stdout = first.stdout ++ second.stdout := by
  rw [stdout, stdout, stdout, after, List.map_append, String.join_append]

variable {source : Except String String} {text file : String} {p d : Problem Float}
  {rank fuel : Nat} {o : Output}

/-! ### the dual -/

/-- what the dual alone prints and reports -/
def dualShown (d : Problem Float) : Output :=
  ⟨[d.text], [.dualBuilt d.variableCount d.constraintCount d.sense], none⟩

theorem stdout_dualShown (d : Problem Float) : (dualShown d).stdout = d.text ++ "\n" := by
  simp [dualShown, Output.stdout]

theorem apply_dual (hdual : p.dual = .ok d) : Reformulation.dual.apply p =
    .ok (d, [.dualBuilt d.variableCount d.constraintCount d.sense]) := by
  rw [Reformulation.apply, hdual]
  rfl

theorem run_dual (hread : Problem.read text = .ok p) (hdual : p.dual = .ok d) :
    run fuel ⟨.dual false .pretty, file, rank⟩ (.ok text) = some (dualShown d) := by
  rw [run_of_read hread]
  dsimp only [perform]
  rw [showDual, apply_dual hdual]
  rfl

/-- the dual is built only of a problem that is read and has one -/
theorem exists_dual_of_ends (hends : EndsWith ⟨.dual false .pretty, file, rank⟩ source o)
    (hcode : o.code = 0) : ∃ text p d, source = .ok text ∧ Problem.read text = .ok p ∧
      p.dual = .ok d ∧ o.stdout = d.text ++ "\n" := by
  obtain ⟨fuel, hrun⟩ := hends
  cases source with
  | error cause =>
    cases hrun
    cases hcode
  | ok text =>
    cases hread : Problem.read text with
    | error e =>
      rw [run, hread] at hrun
      cases hrun
      cases hcode
    | ok p =>
      cases hdual : p.dual with
      | error e =>
        have happly : Reformulation.dual.apply p = .error e := by
          rw [Reformulation.apply, hdual]
          rfl
        rw [run_of_read hread] at hrun
        dsimp only [perform] at hrun
        rw [showDual, happly] at hrun
        cases hrun
        cases hcode
      | ok d =>
        rw [run_dual hread hdual] at hrun
        obtain rfl := Option.some.inj hrun
        exact ⟨text, p, d, rfl, hread, hdual, stdout_dualShown d⟩

/-! ### the dual and its solve -/

/-- With the solve, an empty line follows, and what solving the printed dual shows. -/
theorem run_dual_solve (hread : Problem.read text = .ok p) (hdual : p.dual = .ok d)
    {printed : String} (hprinted : Problem.read printed = .ok d) (file' : String) :
    run fuel ⟨.dual true .pretty, file, rank⟩ (.ok text) =
      (run fuel ⟨.solve .dual false .pretty none, file', rank⟩ (.ok printed)).map
        (((dualShown d).after ⟨[""], [], none⟩).after ·) := by
  rw [run_of_read hread, run_of_read hprinted]
  dsimp only [perform]
  rw [showDual, apply_dual hdual]
  rfl

/-- If the dual of a file can be printed, then to print and solve it is to print it, an empty line,
and what the dual method prints for the printed file, with the same exit code and the same failure;
the one ends exactly if the other does.  The dual of the printed file is the prepared form of the
problem. -/
theorem dual_then_solve (hends : EndsWith ⟨.dual false .pretty, file, rank⟩ source o)
    (hcode : o.code = 0) (file' : String) :
    (∃ text p q back, source = .ok text ∧ Problem.read text = .ok p ∧ p.prepared = .ok q ∧
      EndsWith ⟨.dual false .pretty, file', rank⟩ (.ok o.stdout) back ∧ back.code = 0 ∧
      back.stdout = q.text ++ "\n") ∧
    ((∃ both, EndsWith ⟨.dual true .pretty, file, rank⟩ source both) ↔
      ∃ solved, EndsWith ⟨.solve .dual false .pretty none, file', rank⟩ (.ok o.stdout) solved) ∧
    ∀ both solved, EndsWith ⟨.dual true .pretty, file, rank⟩ source both →
      EndsWith ⟨.solve .dual false .pretty none, file', rank⟩ (.ok o.stdout) solved →
      both.stdout = o.stdout ++ "\n" ++ solved.stdout ∧ both.code = solved.code ∧
        both.stderr = solved.stderr ∧ logLines Level.error.rank both.events = [] ∧
        logLines Level.error.rank solved.events = [] := by
  obtain ⟨text, p, d, rfl, hread, hdual, hstdout⟩ := exists_dual_of_ends hends hcode
  -- the print is read as the dual
  have hprinted : Problem.read o.stdout = .ok d := by
    rw [hstdout, Problem.read_append_feed]
    exact ((Problem.spellable_of_read hread).dual hdual).read_text
  obtain ⟨hprepared, hback⟩ := Problem.dual_of_dual_eq hdual
  have hboth : ∀ n, run n ⟨.dual true .pretty, file, rank⟩ (.ok text) = _ :=
    fun n => run_dual_solve hread hdual hprinted file'
  refine ⟨⟨text, p, p.turned, dualShown p.turned, rfl, hread, hprepared,
    ⟨0, run_dual hprinted hback⟩, rfl, stdout_dualShown p.turned⟩, ⟨?_, ?_⟩, ?_⟩
  · rintro ⟨both, n, hn⟩
    obtain ⟨solved, hsolved, -⟩ := Option.map_eq_some_iff.1 ((hboth n).symm.trans hn)
    exact ⟨solved, n, hsolved⟩
  · rintro ⟨solved, n, hn⟩
    exact ⟨_, n, (hboth n).trans (congrArg _ hn)⟩
  · rintro both solved hends' ⟨n, hn⟩
    obtain rfl := hends'.unique ⟨n, (hboth n).trans (congrArg _ hn)⟩
    refine ⟨?_, rfl, rfl, logLines_error _, logLines_error _⟩
    rw [Output.stdout_after, Output.stdout_after, stdout_dualShown, hstdout]
    rfl

/-- rows both ways, so that one of them is turned -/
def mixedTask : String := "1 1 <= 4\n-1 0 >= -3\n3 2 max\n"

theorem dual_then_solve_mixedTask : ∃ o both solved,
    EndsWith ⟨.dual false .pretty, "task.txt", 1⟩ (.ok mixedTask) o ∧ o.code = 0 ∧
    EndsWith ⟨.dual true .pretty, "task.txt", 1⟩ (.ok mixedTask) both ∧ both.code = 0 ∧
    EndsWith ⟨.solve .dual false .pretty none, "dual.txt", 1⟩ (.ok o.stdout) solved ∧
    both.stdout = o.stdout ++ "\n" ++ solved.stdout := by
  have hdual : (run 0 ⟨.dual false .pretty, "task.txt", 1⟩ (.ok mixedTask)).map Output.code =
      some 0 := by decide +kernel
  have hboth : (run 10 ⟨.dual true .pretty, "task.txt", 1⟩ (.ok mixedTask)).map Output.code =
      some 0 := by decide +kernel
  obtain ⟨o, ho, hcode⟩ := Option.map_eq_some_iff.1 hdual
  obtain ⟨both, hends, hsolves⟩ := Option.map_eq_some_iff.1 hboth
  obtain ⟨-, hiff, hagree⟩ := dual_then_solve ⟨0, ho⟩ hcode "dual.txt"
  obtain ⟨solved, hsolved⟩ := hiff.1 ⟨both, 10, hends⟩
  exact ⟨o, both, solved, ⟨0, ho⟩, hcode, ⟨10, hends⟩, hsolves, hsolved,
    (hagree both solved ⟨10, hends⟩ hsolved).1⟩

end CommandLine

end LinearProgram
