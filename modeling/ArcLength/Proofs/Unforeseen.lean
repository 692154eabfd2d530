import ArcLength.CommandLine
import ArcLength.Proofs.Serving

/-!
# Unforeseen failures

The front ends foresee that path data is rejected: the command line exits with one, and the service
answers 422. The other failure of path data they let through, so it aborts the command line and
makes the service answer 500.
-/

namespace ArcLength

open PathData (ClosesBeforeMove Instruction Token ofData_eq_unanchoredClose_iff)

namespace CommandLine

variable {budget : Nat} {arguments : List String} {d : String} {s : Settings}

def Outcome.isExit : Outcome → Bool
  | .exited _ _ _ => true
  | _ => false

theorem isExit_atPlace (place : Float) (line : String) (reached : Bool) :
    (atPlace place line reached).isExit = true := by
  cases reached <;> rfl

theorem isExit_of_measure {p : Path Float} {tolerance : Float} {o : Outcome}
    (h : measure budget p tolerance s = some o) : o.isExit = true := by
  unfold measure at h
  split at h
  · obtain ⟨points, -, h⟩ := Option.bind_eq_some_iff.mp h
    cases h
    rfl
  · cases h
  · obtain ⟨length, -, h⟩ := Option.bind_eq_some_iff.mp h
    cases h
    rfl
  · cases h
  · split at h
    · obtain ⟨answer, -, h⟩ := Option.bind_eq_some_iff.mp h
      cases h
      exact isExit_atPlace _ _ _
    · obtain ⟨answer, -, h⟩ := Option.bind_eq_some_iff.mp h
      cases h
      exact isExit_atPlace _ _ _

theorem isExit_of_report {p : Path Float} {o : Outcome} (h : report budget p s = some o) :
    o.isExit = true := by
  unfold report at h
  split at h <;> exact isExit_of_measure h

theorem getD_report_ne_aborted (p : Path Float) (f : PathData.Failure) :
    (report budget p s).getD .unfinished ≠ .aborted d f := by
  cases hreport : report budget p s with
  | none => simp
  | some o =>
      intro haborted
      have hexit := isExit_of_report hreport
      rw [Option.getD_some] at haborted
      simp [haborted, Outcome.isExit] at hexit

theorem Request.run_eq_aborted_iff {d' : String} {f : PathData.Failure} :
    (Request.measure d' s).run budget = .aborted d f ↔
      d' = d ∧ f = .unanchoredClose ∧ Path.ofData (α := Float) d = .error .unanchoredClose := by
  rw [Request.run]
  cases hdata : Path.ofData (α := Float) d' with
  | ok p =>
      refine iff_of_false (getD_report_ne_aborted p f) ?_
      rintro ⟨rfl, -, hfailure⟩
      simp [hdata] at hfailure
  | error g =>
      cases g with
      | rejected r =>
          refine iff_of_false nofun ?_
          rintro ⟨rfl, -, hfailure⟩
          simp [hdata] at hfailure
      | unanchoredClose =>
          constructor
          · intro h
            cases h
            exact ⟨rfl, rfl, hdata⟩
          · rintro ⟨rfl, rfl, -⟩
            rfl

/-- A failure of path data that aborts is a close before any move. -/
theorem run_eq_aborted_iff {f : PathData.Failure} :
    run budget arguments = .aborted d f ↔
      (∃ s, Request.ofArguments arguments = .ok (.measure d s)) ∧ f = .unanchoredClose ∧
        ClosesBeforeMove Float (Token.ofText d) := by
  rw [run, ← ofData_eq_unanchoredClose_iff]
  cases Request.ofArguments arguments with
  | error e => simp
  | ok request =>
      cases request with
      | help => simp [Request.run]
      | measure d' s =>
          dsimp only
          rw [Request.run_eq_aborted_iff]
          constructor
          · rintro ⟨rfl, rfl, hdata⟩
            exact ⟨⟨s, rfl⟩, rfl, hdata⟩
          · rintro ⟨⟨_, heq⟩, rfl, hdata⟩
            cases heq
            exact ⟨rfl, rfl, hdata⟩

theorem ofArguments_singleton (h : d.toList.head? ≠ some '-') :
    Request.ofArguments [d] = .ok (.measure d .default) := by
  have hseparator : d ≠ "--" := by
    rintro rfl
    exact h rfl
  have hword : Word.ofArgument d = .ok (.positional d) := by simp [Word.ofArgument, h]
  have hwords : Word.ofArguments [d] = .ok [.positional d] := by
    simp [Word.ofArguments, hseparator, hword, bind, Except.bind, pure, Except.pure]
  rw [Request.ofArguments, hwords]
  change (Intake.take _ _ >>= _) = _
  rw [Intake.take]
  rfl

theorem run_of_rejected {r : PathData.Rejection}
    (harguments : Request.ofArguments arguments = .ok (.measure d s))
    (hdata : Path.ofData (α := Float) d = .error (.rejected r)) :
    run budget arguments = .exited 1 [] ["error: " ++ r.message d] := by
  simp [run, harguments, Request.run, hdata]

end CommandLine

open CommandLine (Request) in
open Service (Endpoint Response status) in
/-- What the front ends make of path data: a rejection is foreseen, and what closes before it moves
is not. -/
structure ForeseesRejections (budget : Nat) : Prop where
  reading : ∀ d, Path.ofData (α := Float) d = .error .unanchoredClose ↔
    ClosesBeforeMove Float (Token.ofText d)
  /-- The command line aborts on no other path data. -/
  aborting : ∀ arguments d f, CommandLine.run budget arguments = .aborted d f ↔
    (∃ s, Request.ofArguments arguments = .ok (.measure d s)) ∧ f = .unanchoredClose ∧
      ClosesBeforeMove Float (Token.ofText d)
  exiting : ∀ arguments d s r, Request.ofArguments arguments = .ok (.measure d s) →
    Path.ofData (α := Float) d = .error (.rejected r) →
    CommandLine.run budget arguments = .exited 1 [] ["error: " ++ r.message d]
  /-- The service fails on no other path data. -/
  failing : ∀ (e : Endpoint) body,
    e.respond (α := Float) budget body = some (.error .internalError) ↔
      ∃ d, e.dataRead? Float body = some d ∧ ClosesBeforeMove Float (Token.ofText d)
  answering : ∀ (e : Endpoint) body (response : Response Float),
    e.respond budget body = some response →
      status response = 200 ∨ status response = 422 ∨ response = .error .internalError
  refusing : ∀ (e : Endpoint) body d r, e.dataRead? Float body = some d →
    Path.ofData (α := Float) d = .error (.rejected r) →
    e.respond (α := Float) budget body = some (.error (.rejected d r))

/-- **Rejections are foreseen.** For all arguments and all bodies, the one failure of path data that
gets past both front ends is a close before any move, and every rejection comes out as an error of
the command line with code one and as a refusal of the service. -/
theorem foresees_rejections (budget : Nat) : ForeseesRejections budget where
  reading _ := ofData_eq_unanchoredClose_iff
  aborting _ _ _ := CommandLine.run_eq_aborted_iff
  exiting _ _ _ _ harguments hdata := CommandLine.run_of_rejected harguments hdata
  failing e body := (Service.Reads.respond budget body e).eq_internalError_iff
  answering e body _ hresponse := (Service.Reads.respond budget body e).status_of_eq_some hresponse
  refusing e body d r hread hdata := by
    have h := Service.Reads.respond (α := Float) budget body e
    rw [hread] at h
    obtain ⟨measure, hrespond⟩ := h
    rw [hrespond]
    exact Service.answerWith_of_rejected hdata

theorem foresees_rejections_bare_numbers :
    Path.ofData (α := Float) "10 20 30" = .error (.rejected (.shortage (.noCommand 3))) ∧
      CommandLine.run ampleBudget ["10 20 30"] = .exited 1 []
        ["error: Invalid path data: Unallowed implicit command in 10 20 30, position 0"] := by
  have hdata : Path.ofData (α := Float) "10 20 30" =
      .error (.rejected (.shortage (.noCommand 3))) := by
    have hdeal : Instruction.ofTokens (Token.ofText "10 20 30") =
        ([], some (.noCommand 3)) := by decide +kernel
    rw [Path.ofData, PathData.segments, hdeal]
    rfl
  have hmessage : "error: " ++ PathData.Rejection.message "10 20 30" (.shortage (.noCommand 3)) =
      "error: Invalid path data: Unallowed implicit command in 10 20 30, position 0" := by
    decide +kernel
  refine ⟨hdata, ?_⟩
  rw [← hmessage]
  exact (foresees_rejections ampleBudget).exiting ["10 20 30"] "10 20 30" _ _
    (CommandLine.ofArguments_singleton (by decide)) hdata

/-- A lone close is path data that both front ends let through. -/
theorem lone_close_is_not_foreseen :
    Path.ofData (α := Float) "Z" = .error .unanchoredClose ∧
      CommandLine.run ampleBudget ["Z"] = .aborted "Z" .unanchoredClose ∧
      Service.handle (α := Float) ampleBudget "POST" "/api/length"
        (some (.record [("d", .text "Z")])) = some (.error .internalError) := by
  have hcloses : ClosesBeforeMove Float (Token.ofText "Z") :=
    ⟨[.closePath], by decide +kernel, ⟨_, rfl⟩, [], [], rfl, by simp⟩
  have hread : Service.Endpoint.dataRead? Float (some (.record [("d", .text "Z")])) .length =
      some "Z" := rfl
  refine ⟨ofData_eq_unanchoredClose_iff.mpr hcloses, ?_, ?_⟩
  · exact CommandLine.run_eq_aborted_iff.mpr
      ⟨⟨_, CommandLine.ofArguments_singleton (by decide)⟩, rfl, hcloses⟩
  · exact (Service.handle_path ampleBudget _ .length).trans
      ((Service.Reads.respond _ _ .length).eq_internalError_iff.mpr ⟨"Z", hread, hcloses⟩)

end ArcLength
