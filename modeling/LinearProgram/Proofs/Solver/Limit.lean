import LinearProgram.Proofs.Solver.Failing
import LinearProgram.Proofs.Solver.Forward

/-!
# The limit on the pivots

A limit cuts a solve short and does nothing else.  With a limit every solve ends, at the latest
three moves after the pivots that the limit allows.  The limit is looked at only where a pivot is
due, so that an end which is not at the limit is the end under any limit above the pivots made.

* `Ends`                         how a solve ends, and after how many moves;
* `Ends.solve_eq`, `exists_ends_of_solve`   these are the answers of `solve`;
* `exists_ends_of_invariant`     with a bound on the pivots there is an end, after a bounded
                                 number of moves; `exists_ends` where the bound is the limit;
* `Ends.at_limit`                where a solve stands that ended at its limit;
* `Ends.withMaxIterations`       an end that is not at the limit, under another limit;
* `limit_cuts_short`             all of this for a solve from its start.
-/

namespace LinearProgram

namespace Solver

variable {α : Type} [Scalar α]

/-- A solve from the solver ends in `last` with the answer, after so many moves. -/
inductive Ends : Solver α → Nat → Solver α → Except (Failure α) (Solution α) → Prop where
  | solved {s : Solver α} {solution : Solution α} (h : s.solution? = some solution) :
    Ends s 0 s (.ok solution)
  | failed {s last : Solver α} {e : Failure α} (h : s.solution? = none)
    (hmove : s.move = (last, .error e)) : Ends s 1 last (.error e)
  | moved {s next last : Solver α} {step : Step} {n : Nat}
    {answer : Except (Failure α) (Solution α)} (h : s.solution? = none)
    (hmove : s.move = (next, .ok step)) (hrest : Ends next n last answer) :
    Ends s (n + 1) last answer

variable {s next last : Solver α} {answer : Except (Failure α) (Solution α)} {n k : Nat}
  {limit : Option Nat}

/-! ### ends and solves -/

theorem Ends.solve_eq (h : s.Ends n last answer) {rounds : Nat} (hrounds : n < rounds) :
    s.solve rounds = (last, some answer) := by
  induction h generalizing rounds with
  | solved hsolution =>
    obtain ⟨r, rfl⟩ := Nat.exists_eq_add_of_lt hrounds
    rw [solve, hsolution]
  | failed hsolution hmove =>
    obtain ⟨r, rfl⟩ := Nat.exists_eq_add_of_lt hrounds
    rw [solve, hsolution, hmove]
  | moved hsolution hmove _ ih =>
    obtain ⟨r, rfl⟩ := Nat.exists_eq_add_of_lt hrounds
    rw [solve, hsolution, hmove]
    exact ih (by omega)

theorem exists_ends_of_solve {rounds : Nat} (h : s.solve rounds = (last, some answer)) :
    ∃ n ≤ rounds, s.Ends n last answer := by
  induction rounds generalizing s with
  | zero => cases h
  | succ rounds ih =>
    rw [solve] at h
    cases hsolution : s.solution? with
    | some solution =>
      rw [hsolution] at h
      cases h
      exact ⟨0, Nat.zero_le _, .solved hsolution⟩
    | none =>
      rw [hsolution] at h
      cases hmove : s.move with
      | mk next result =>
        rw [hmove] at h
        cases result with
        | error e =>
          cases h
          exact ⟨1, by omega, .failed hsolution hmove⟩
        | ok step =>
          obtain ⟨n, hn, hrest⟩ := ih h
          exact ⟨n + 1, by omega, .moved hsolution hmove hrest⟩

/-- a solve has one end -/
theorem Ends.unique {n' : Nat} {last' : Solver α} {answer' : Except (Failure α) (Solution α)}
    (h : s.Ends n last answer) (h' : s.Ends n' last' answer') :
    n' = n ∧ last' = last ∧ answer' = answer := by
  induction h generalizing n' with
  | solved hsolution =>
    cases h' with
    | solved hsolution' =>
      rw [hsolution] at hsolution'
      cases hsolution'
      exact ⟨rfl, rfl, rfl⟩
    | failed hnone => rw [hsolution] at hnone; cases hnone
    | moved hnone => rw [hsolution] at hnone; cases hnone
  | failed hsolution hmove =>
    cases h' with
    | solved hsolution' => rw [hsolution] at hsolution'; cases hsolution'
    | failed _ hmove' =>
      rw [hmove] at hmove'
      cases hmove'
      exact ⟨rfl, rfl, rfl⟩
    | moved _ hmove' => rw [hmove] at hmove'; cases hmove'
  | moved hsolution hmove _ ih =>
    cases h' with
    | solved hsolution' => rw [hsolution] at hsolution'; cases hsolution'
    | failed _ hmove' => rw [hmove] at hmove'; cases hmove'
    | moved _ hmove' hrest' =>
      rw [hmove] at hmove'
      cases hmove'
      obtain ⟨rfl, rfl, rfl⟩ := ih hrest'
      exact ⟨rfl, rfl, rfl⟩

/-! ### one move -/

theorem transition_of_move {result : Except (Failure α) Step} (h : s.move = (next, result)) :
    Transition s next := by
  rw [move_eq] at h
  cases h
  exact transition_step s

theorem failure_of_move_ok {step : Step} (h : s.move = (next, .ok step)) :
    s.failure = none ∧ next.failure = none := by
  rw [move_eq, Prod.mk.injEq] at h
  obtain ⟨rfl, hstanding⟩ := h
  have hnext : s.step.1.failure = none := by
    rw [standing] at hstanding
    cases hfail : s.step.1.failure with
    | none => rfl
    | some e => rw [hfail] at hstanding; cases hstanding
  refine ⟨?_, hnext⟩
  cases hfail : s.failure with
  | none => rfl
  | some e =>
    rw [step_of_failure (by rw [hfail]; rfl), hfail] at hnext
    exact hnext

theorem move_of_failure {e : Failure α} (h : s.failure = some e) : s.move = (s, .error e) := by
  rw [move, h]

theorem fst_of_move {result : Except (Failure α) Step} (h : s.move = (next, result)) :
    s.step.1 = next := by
  rw [move_eq] at h
  exact congrArg Prod.fst h

/-- a failing move records what barred it -/
theorem move_eq_error {e : Failure α} (hnone : s.failure = none)
    (h : s.move = (next, .error e)) :
    s.advance = .error e ∧ next = { s with failure := some e } := by
  have hnext : next = { s with failure := some e } := by
    have herror := move_error hnone (congrArg Prod.snd h)
    rw [h] at herror
    exact herror
  refine ⟨?_, hnext⟩
  have hstep := (fst_of_move h).trans hnext
  rw [step_fst hnone] at hstep
  cases hadvance : s.advance with
  | error e' =>
    rw [hadvance] at hstep
    exact congrArg Except.error (Option.some.inj (congrArg Solver.failure hstep))
  | ok result =>
    rw [hadvance] at hstep
    have hfail : result.1.failure = none := (failure_of_advance hadvance).trans hnone
    exact nomatch hfail.symm.trans (congrArg Solver.failure hstep)

/-! ### where the limit is looked at -/

/-- the next move looks for a pivot, if the limit lets it -/
def AwaitsPivot (s : Solver α) : Prop :=
  s.optimal = false ∧ ∃ t iterated, s.stage = .pivoting t iterated

omit [Scalar α] in
theorem limitReached_eq_some_iff :
    s.limitReached = some k ↔ s.maxIterations = some k ∧ k ≤ s.iterations := by
  rw [limitReached, Option.filter_eq_some_iff, decide_eq_true_iff]

omit [Scalar α] in
theorem limitReached_eq_none_iff :
    s.limitReached = none ↔ ∀ l, s.maxIterations = some l → s.iterations < l := by
  rw [limitReached, Option.filter_eq_none_iff]
  simp

theorem advance_of_limitReached (h : s.AwaitsPivot) (hlimit : s.limitReached = some k) :
    s.advance = .error (.iterationLimit k) := by
  obtain ⟨hoptimal, t, iterated, hstage⟩ := h
  simp only [advance, hstage, hoptimal, Bool.false_eq_true, if_false, iterate, hlimit]

/-- the limit does not matter to a transition, if it does not bar the pivot that is due -/
theorem advance_withMaxIterations (h : s.AwaitsPivot →
    s.limitReached = none ∧ (s.withMaxIterations limit).limitReached = none) :
    (s.withMaxIterations limit).advance =
      s.advance.map fun r => (r.1.withMaxIterations limit, r.2) := by
  cases hstage : s.stage with
  | initial =>
    simp only [advance, withMaxIterations, hstage]
    rfl
  | transformed =>
    have hbuild : (s.withMaxIterations limit).buildTableau = s.buildTableau := rfl
    rw [advance, advance, hbuild]
    simp only [withMaxIterations, hstage]
    cases s.buildTableau <;> rfl
  | pivoting t iterated =>
    cases hoptimal : s.optimal with
    | true =>
      simp only [advance, withMaxIterations, hstage, hoptimal]
      rfl
    | false =>
      obtain ⟨hlimit, hlimit'⟩ := h ⟨hoptimal, t, iterated, hstage⟩
      have hsame : (s.withMaxIterations limit).advance = (s.withMaxIterations limit).iterate t := by
        simp only [advance, withMaxIterations, hstage, hoptimal]
        rfl
      have hold : s.advance = s.iterate t := by
        simp only [advance, hstage, hoptimal]
        rfl
      rw [hsame, hold, iterate, iterate, hlimit, hlimit']
      simp only [withMaxIterations]
      cases s.method.selectPivot s.tolerance t.toTableau with
      | error e => rfl
      | ok place => cases place <;> rfl
  | complete t =>
    have hsame : (s.withMaxIterations limit).advance = .ok (s.withMaxIterations limit, []) := by
      simp only [advance, withMaxIterations, hstage]
    have hold : s.advance = .ok (s, []) := by simp only [advance, hstage]
    rw [hsame, hold]
    rfl

theorem move_withMaxIterations (h : s.AwaitsPivot →
    s.limitReached = none ∧ (s.withMaxIterations limit).limitReached = none) :
    (s.withMaxIterations limit).move = (s.move.1.withMaxIterations limit, s.move.2) := by
  cases hfail : s.failure with
  | some e =>
    have hfail' : (s.withMaxIterations limit).failure = some e := hfail
    rw [move, move, hfail, hfail']
  | none =>
    have hstep : (s.withMaxIterations limit).step.1 = s.step.1.withMaxIterations limit := by
      have hfail' : (s.withMaxIterations limit).failure = none := hfail
      rw [step_fst hfail, step_fst hfail', advance_withMaxIterations h]
      cases s.advance <;> rfl
    rw [move_eq, move_eq, hstep]
    rfl

/-! ### along a solve -/

theorem Ends.maxIterations_eq (h : s.Ends n last answer) :
    last.maxIterations = s.maxIterations := by
  induction h with
  | solved => rfl
  | failed _ hmove => exact (transition_of_move hmove).maxIterations_eq
  | moved _ hmove _ ih => exact ih.trans (transition_of_move hmove).maxIterations_eq

theorem Ends.iterations_le (h : s.Ends n last answer) : s.iterations ≤ last.iterations := by
  induction h with
  | solved => exact Nat.le_refl _
  | failed _ hmove => exact (transition_of_move hmove).iterations_le
  | moved _ hmove _ ih => exact Nat.le_trans (transition_of_move hmove).iterations_le ih

theorem Transition.iterations_within (h : Transition s next) (hk : s.maxIterations = some k)
    (hle : s.iterations ≤ k) : next.iterations ≤ k := by
  cases h with
  | pivot _ _ hlimit => exact limitReached_eq_none_iff.1 hlimit k hk
  | _ => exact hle

theorem Ends.iterations_within (h : s.Ends n last answer) (hk : s.maxIterations = some k)
    (hle : s.iterations ≤ k) : last.iterations ≤ k := by
  induction h with
  | solved => exact hle
  | failed _ hmove => exact (transition_of_move hmove).iterations_within hk hle
  | moved _ hmove _ ih =>
    have hstep := transition_of_move hmove
    exact ih (hstep.maxIterations_eq.trans hk) (hstep.iterations_within hk hle)

/-- only the limit is reported as the limit, before a pivot that was due -/
theorem advance_iterationLimit {l : Nat} (h : s.advance = .error (.iterationLimit l)) :
    s.AwaitsPivot ∧ s.limitReached = some l := by
  obtain ⟨-, hbuild⟩ | ⟨t, iterated, hstage, hoptimal, hiterate⟩ := advance_eq_error h
  · exact absurd rfl ((isRefusal_of_buildTableau hbuild).ne_iterationLimit l)
  · obtain ⟨l', hlimit, heq⟩ | ⟨-, hselect⟩ := iterate_eq_error hiterate
    · cases heq
      exact ⟨⟨hoptimal, t, iterated, hstage⟩, hlimit⟩
    · exact absurd rfl ((Method.isVerdict_of_selectPivot hselect).ne_iterationLimit l)

theorem Ends.at_limit {l : Nat} (h : s.Ends n last (.error (.iterationLimit l)))
    (hnone : s.failure = none) : last.AwaitsPivot ∧ last.limitReached = some l := by
  generalize hanswer : (Except.error (.iterationLimit l) : Except (Failure α) (Solution α)) =
    answer at h
  induction h with
  | solved => cases hanswer
  | failed _ hmove =>
    cases hanswer
    obtain ⟨hadvance, rfl⟩ := move_eq_error hnone hmove
    have hlast := advance_iterationLimit hadvance
    exact hlast
  | moved _ hmove _ ih => exact ih (failure_of_move_ok hmove).2 hanswer

theorem advance_ne_error_of_move_ok {step : Step} (h : s.move = (next, .ok step))
    (e : Failure α) : s.advance ≠ .error e := by
  intro hadvance
  have hnext := (fst_of_move h).symm.trans (step_fst (failure_of_move_ok h).1)
  rw [hadvance] at hnext
  exact nomatch (failure_of_move_ok h).2.symm.trans (congrArg Solver.failure hnext)

/-- a transition that is not barred by the limit is not barred by one above the pivots made -/
theorem limitReached_of_advance (h : ∀ l, s.advance ≠ .error (.iterationLimit l))
    (hlimit : ∀ l, limit = some l → s.iterations < l) (hawaits : s.AwaitsPivot) :
    s.limitReached = none ∧ (s.withMaxIterations limit).limitReached = none := by
  refine ⟨?_, limitReached_eq_none_iff.2 hlimit⟩
  rw [Option.eq_none_iff_forall_ne_some]
  exact fun l hl => h l (advance_of_limitReached hawaits hl)

/-- An end that is not at the limit stays the end under any limit above the pivots made. -/
theorem Ends.withMaxIterations (h : s.Ends n last answer)
    (hanswer : ∀ l, answer ≠ .error (.iterationLimit l))
    (hlimit : ∀ l, limit = some l → last.iterations < l) :
    (s.withMaxIterations limit).Ends n (last.withMaxIterations limit) answer := by
  induction h with
  | solved hsolution => exact .solved hsolution
  | @failed s last e hsolution hmove =>
    refine .failed hsolution ?_
    cases hfail : s.failure with
    | some e' =>
      rw [move_of_failure hfail] at hmove
      cases hmove
      exact move_of_failure hfail
    | none =>
      have hle := (transition_of_move hmove).iterations_le
      rw [move_withMaxIterations, hmove]
      refine limitReached_of_advance (fun l hl => ?_)
        fun l hl => Nat.lt_of_le_of_lt hle (hlimit l hl)
      rw [(move_eq_error hfail hmove).1] at hl
      cases hl
      exact hanswer l rfl
  | @moved s next last step n answer hsolution hmove hrest ih =>
    have hle := Nat.le_trans (transition_of_move hmove).iterations_le hrest.iterations_le
    have hmove' : (s.withMaxIterations limit).move = (next.withMaxIterations limit, .ok step) := by
      rw [move_withMaxIterations, hmove]
      exact limitReached_of_advance (fun l => advance_ne_error_of_move_ok hmove _)
        fun l hl => Nat.lt_of_le_of_lt hle (hlimit l hl)
    exact .moved hsolution hmove' (ih hanswer hlimit)

/-! ### with a limit a solve ends -/

/-- a bound on the moves that are left under a limit of `k` pivots -/
def movesLeft (k : Nat) (s : Solver α) : Nat :=
  match s.stage with
  | .initial => k - s.iterations + 3
  | .transformed => k - s.iterations + 2
  | .pivoting _ _ => if s.optimal then 1 else k - s.iterations + 1
  | .complete _ => 0

theorem Transition.movesLeft_lt (h : Transition s next)
    (hlt : s.AwaitsPivot → s.limitReached = none → s.iterations < k)
    (hsolution : s.solution? = none) (hnone : next.failure = none) :
    next.movesLeft k < s.movesLeft k := by
  cases h with
  | stay hsettled =>
    rw [not_settled_iff.2 ⟨hnone, hsolution⟩] at hsettled
    cases hsettled
  | fail => cases hnone
  | transform hstage =>
    simp only [movesLeft, hstage]
    omega
  | build hstage =>
    simp only [movesLeft, hstage]
    split <;> omega
  | finish hstage hoptimal => simp only [movesLeft, hstage, hoptimal, if_true, Nat.zero_lt_one]
  | exhaust hstage hoptimal hlimit =>
    have hlt := hlt ⟨hoptimal, _, _, hstage⟩ hlimit
    simp only [movesLeft, hstage, hoptimal, if_true, Bool.false_eq_true, if_false]
    omega
  | pivot hstage hoptimal hlimit =>
    have hlt := hlt ⟨hoptimal, _, _, hstage⟩ hlimit
    simp only [movesLeft, hstage, hoptimal, Bool.false_eq_true, if_false]
    split <;> omega

theorem movesLeft_pos (k : Nat) (hsolution : s.solution? = none) : 0 < s.movesLeft k := by
  rw [movesLeft]
  cases hstage : s.stage with
  | initial => exact Nat.succ_pos _
  | transformed => exact Nat.succ_pos _
  | pivoting t iterated =>
    dsimp only
    split
    · exact Nat.one_pos
    · exact Nat.succ_pos _
  | complete t =>
    rw [solution?, hstage] at hsolution
    cases hsolution

/-- A solve ends if each pivot that is due has fewer than `k` pivots before it, in every state
that the solve can reach. -/
theorem exists_ends_of_invariant {P : Solver α → Prop} (hstep : ∀ u, P u → P u.step.1)
    (hlt : ∀ u, P u → u.AwaitsPivot → u.limitReached = none → u.iterations < k) (hs : P s) :
    ∃ n ≤ s.movesLeft k, ∃ last answer, s.Ends n last answer ∧ P last := by
  induction hbound : s.movesLeft k using Nat.strongRecOn generalizing s with
  | _ bound ih =>
    subst hbound
    cases hsolution : s.solution? with
    | some solution => exact ⟨0, Nat.zero_le _, s, _, .solved hsolution, hs⟩
    | none =>
      cases hmove : s.move with
      | mk next result =>
        have hnext : P next := fst_of_move hmove ▸ hstep s hs
        cases result with
        | error e => exact ⟨1, movesLeft_pos k hsolution, next, _, .failed hsolution hmove, hnext⟩
        | ok step =>
          have hless := (transition_of_move hmove).movesLeft_lt (hlt s hs) hsolution
            (failure_of_move_ok hmove).2
          obtain ⟨n, hn, last, answer, hends, hlast⟩ := ih _ hless hnext rfl
          exact ⟨n + 1, by omega, last, answer, .moved hsolution hmove hends, hlast⟩

theorem exists_ends (hk : s.maxIterations = some k) :
    ∃ n ≤ s.movesLeft k, ∃ last answer, s.Ends n last answer := by
  obtain ⟨n, hn, last, answer, hends, -⟩ :=
    exists_ends_of_invariant (P := fun u => u.maxIterations = some k)
      (fun u hu => (transition_step u).maxIterations_eq.trans hu)
      (fun u hu _ hlimit => limitReached_eq_none_iff.1 hlimit k hu) hk
  exact ⟨n, hn, last, answer, hends⟩

/-- A solve from its start under a limit of `k` pivots: it ends after at most `k + 3` moves and
`k` pivots, and it fails at its limit only after `k` pivots and before an optimal tableau.  Any
other end is the end, but for the setting itself, under each larger limit and under none; and an
end of such a solve after fewer than `k` pivots is the end under the limit of `k`. -/
theorem limit_cuts_short (m : Method) (p : Problem α) (tolerance : α) (k : Nat) :
    ∃ n last answer,
      ((start m p tolerance).withMaxIterations (some k)).Ends n last answer ∧
      (∀ rounds, k + 3 < rounds → ((start m p tolerance).withMaxIterations (some k)).solve rounds =
        (last, some answer)) ∧
      n ≤ k + 3 ∧ last.iterations ≤ k ∧
      (∀ l, answer = .error (.iterationLimit l) →
        l = k ∧ last.iterations = k ∧ last.optimal = false) ∧
      ∀ limit, (∀ l, limit = some l → k < l) →
        ((∀ l, answer ≠ .error (.iterationLimit l)) →
          ((start m p tolerance).withMaxIterations limit).Ends n (last.withMaxIterations limit)
            answer) ∧
        ∀ n' last' answer', ((start m p tolerance).withMaxIterations limit).Ends n' last' answer' →
          last'.iterations < k →
            n' = n ∧ last' = last.withMaxIterations limit ∧ answer' = answer := by
  have hk : ((start m p tolerance).withMaxIterations (some k)).maxIterations = some k := rfl
  obtain ⟨n, hn, last, answer, hends⟩ := exists_ends hk
  have hbound : n ≤ k + 3 := hn
  have hlast : last.maxIterations = some k := hends.maxIterations_eq
  have hle := hends.iterations_within hk (Nat.zero_le k)
  refine ⟨n, last, answer, hends, fun rounds hrounds => hends.solve_eq (by omega), hbound, hle,
    ?_, fun limit hlimit => ⟨?_, ?_⟩⟩
  · rintro l rfl
    obtain ⟨⟨hoptimal, -⟩, hreached⟩ := hends.at_limit rfl
    obtain ⟨hl, hge⟩ := limitReached_eq_some_iff.1 hreached
    obtain rfl : k = l := Option.some.inj (hlast.symm.trans hl)
    exact ⟨rfl, Nat.le_antisymm hle hge, hoptimal⟩
  · intro hanswer
    exact hends.withMaxIterations hanswer fun l hl => Nat.lt_of_le_of_lt hle (hlimit l hl)
  · intro n' last' answer' hends' hlt
    have hlast' : last'.maxIterations = limit := hends'.maxIterations_eq
    have hanswer' : ∀ l, answer' ≠ .error (.iterationLimit l) := by
      rintro l rfl
      obtain ⟨hl, hge⟩ := limitReached_eq_some_iff.1 (hends'.at_limit rfl).2
      have hgt := hlimit l (hlast'.symm.trans hl)
      omega
    have hback : ((start m p tolerance).withMaxIterations (some k)).Ends n'
        (last'.withMaxIterations (some k)) answer' :=
      hends'.withMaxIterations hanswer' fun l hl => by
        cases hl
        exact hlt
    obtain ⟨rfl, rfl, rfl⟩ := hends.unique hback
    refine ⟨rfl, ?_, rfl⟩
    rw [← hlast']
    rfl

/-- Two pivots solve the problem: a limit of three does not show, one of two is met exactly, and
one of one stops the solve. -/
theorem limit_cuts_short_twoPivots :
    (∃ n last, ((start .primal twoPivots 0).withMaxIterations (some 3)).Ends n last
      (.ok ⟨[3, 1, 0, 0], 11⟩) ∧ n ≤ 6 ∧
      ((start .primal twoPivots 0).withMaxIterations none).Ends n (last.withMaxIterations none)
        (.ok ⟨[3, 1, 0, 0], 11⟩)) ∧
    (∃ n last, ((start .primal twoPivots 0).withMaxIterations (some 2)).Ends n last
      (.ok ⟨[3, 1, 0, 0], 11⟩) ∧ last.iterations ≤ 2 ∧
      ((start .primal twoPivots 0).withMaxIterations (some 9)).Ends n
        (last.withMaxIterations (some 9)) (.ok ⟨[3, 1, 0, 0], 11⟩)) ∧
    (∃ n last, ((start .primal twoPivots 0).withMaxIterations (some 1)).Ends n last
      (.error (.iterationLimit 1)) ∧ last.iterations = 1 ∧ last.optimal = false) := by
  refine ⟨?_, ?_, ?_⟩
  · obtain ⟨n, last, answer, hends, hsolve, hn, -, -, hother⟩ :=
      limit_cuts_short .primal twoPivots 0 3
    have hsolution : (((start .primal twoPivots 0).withMaxIterations (some 3)).run 6).1.solution? =
      some ⟨[3, 1, 0, 0], 11⟩ := by decide +kernel
    have hanswer := solve_of_run (result_of_solution hsolution)
    rw [hsolve 7 (by decide)] at hanswer
    obtain rfl := Option.some.inj hanswer
    exact ⟨n, last, hends, hn, (hother none nofun).1 nofun⟩
  · obtain ⟨n, last, answer, hends, hsolve, -, hle, -, hother⟩ :=
      limit_cuts_short .primal twoPivots 0 2
    have hsolution : (((start .primal twoPivots 0).withMaxIterations (some 2)).run 5).1.solution? =
      some ⟨[3, 1, 0, 0], 11⟩ := by decide +kernel
    have hanswer := solve_of_run (result_of_solution hsolution)
    rw [hsolve 6 (by decide)] at hanswer
    obtain rfl := Option.some.inj hanswer
    exact ⟨n, last, hends, hle, (hother (some 9) (by decide)).1 nofun⟩
  · obtain ⟨n, last, answer, hends, hsolve, -, -, hlimit, -⟩ :=
      limit_cuts_short .primal twoPivots 0 1
    have hfailure : let s := (((start .primal twoPivots 0).withMaxIterations (some 1)).run 4).1
      s.solution? = none ∧ s.failure = some (.iterationLimit 1) := by decide +kernel
    have hanswer := solve_of_run (result_of_failure hfailure.1 hfailure.2)
    rw [hsolve 5 (by decide)] at hanswer
    obtain rfl := Option.some.inj hanswer
    obtain ⟨-, hiterations, hoptimal⟩ := hlimit 1 rfl
    exact ⟨n, last, hends, hiterations, hoptimal⟩

end Solver

end LinearProgram
