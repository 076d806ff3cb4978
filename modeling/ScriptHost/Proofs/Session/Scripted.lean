import ScriptHost.Proofs.Natives.Deeds
import ScriptHost.Session.Program

/-!
# What scripts do

A script does what it likes: it calls functions of the host, with functions of its own that
the host calls back and that do what they like as well, it catches what is thrown, throws
itself, and does things that leave the tables of the host alone. Everything that a session
does for its script is of this kind, and by itself it does no more to the affairs of the host
than to let time pass. That the script wants to end is the business of the functions of the
host, too, until a program takes the code, and so are the operations that the script holds.
-/

namespace ScriptHost
namespace Session

variable {α β : Type}

/-- A step leaves alone what the host holds of functions. -/
def LeavesAlone (step : SessionM α) : Prop :=
  ∀ session, (step.run.run session).2.host.holdings = session.host.holdings

/-- A step of a script. What it does by itself, or while time passes, leaves alone what the host
holds of functions; for the rest it calls functions of the host, whose callbacks are steps of
the script themselves. -/
inductive Scripted : {α : Type} → SessionM α → Prop
  | aside {α : Type} {step : SessionM α}
      (leavesAlone : LeavesAlone step) :
      Scripted step
  | call {invoke : Invoke}
      (calls : ∀ function arguments, Scripted (invoke function arguments))
      (name : String)
      (arguments : List Value) :
      Scripted (Natives.call invoke name arguments)
  | bind {α β : Type} {first : SessionM α} {next : α → SessionM β}
      (isScripted : Scripted first)
      (goesOn : ∀ value, Scripted (next value)) :
      Scripted (first >>= next)
  | caught {α : Type} {step : SessionM α}
      (isScripted : Scripted step) :
      Scripted (caught step)

/-- A step of a script that leaves the affairs of the host to the functions of the host. By
itself it only lets time pass. -/
inductive Permitted : {α : Type} → SessionM α → Prop
  | aside {α : Type} {step : SessionM α}
      (leavesAlone : ∀ session,
        (step.run.run session).2.host.affairs = session.host.affairs) :
      Permitted step
  | awaits : Permitted await
  | passes (time : Nat) : Permitted (changeHost fun host => host.pass time)
  | call {invoke : Invoke}
      (calls : ∀ function arguments, Permitted (invoke function arguments))
      (name : String)
      (arguments : List Value) :
      Permitted (Natives.call invoke name arguments)
  | bind {α β : Type} {first : SessionM α} {next : α → SessionM β}
      (isPermitted : Permitted first)
      (goesOn : ∀ value, Permitted (next value)) :
      Permitted (first >>= next)
  | caught {α : Type} {step : SessionM α}
      (isPermitted : Permitted step) :
      Permitted (caught step)

/-- A step of a script that leaves the books of the host, which are of requests to end and of
operations, to the functions of the host as well. -/
inductive Compliant : {α : Type} → SessionM α → Prop
  | aside {α : Type} {step : SessionM α}
      (leavesAlone : ∀ session,
        (step.run.run session).2.host.affairs = session.host.affairs ∧
          (step.run.run session).2.host.books = session.host.books) :
      Compliant step
  | awaits : Compliant await
  | passes (time : Nat) : Compliant (changeHost fun host => host.pass time)
  | call {invoke : Invoke}
      (calls : ∀ function arguments, Compliant (invoke function arguments))
      (name : String)
      (arguments : List Value) :
      Compliant (Natives.call invoke name arguments)
  | bind {α β : Type} {first : SessionM α} {next : α → SessionM β}
      (isCompliant : Compliant first)
      (goesOn : ∀ value, Compliant (next value)) :
      Compliant (first >>= next)
  | caught {α : Type} {step : SessionM α}
      (isCompliant : Compliant step) :
      Compliant (caught step)

/-- What complies is permitted. -/
theorem Compliant.permitted
    {step : SessionM α}
    (isCompliant : Compliant step) :
    Permitted step := by
  induction isCompliant with
  | aside leavesAlone => exact .aside fun session => (leavesAlone session).1
  | awaits => exact .awaits
  | passes time => exact .passes time
  | call _ name arguments inductionHypothesis => exact .call inductionHypothesis name arguments
  | bind _ _ first next => exact .bind first next
  | caught _ inductionHypothesis => exact .caught inductionHypothesis

/-- What is permitted is a step of a script. -/
theorem Permitted.scripted
    {step : SessionM α}
    (isPermitted : Permitted step) :
    Scripted step := by
  induction isPermitted with
  | aside leavesAlone =>
      exact .aside fun session => congrArg Affairs.holdings (leavesAlone session)
  | awaits =>
      refine .aside fun session => ?_
      cases waited : session.host.await? with
      | none => rw [run_await_none waited]
      | some later =>
          rw [run_await waited]
          exact Host.holdings_await? waited
  | passes time => exact .aside fun session => Host.holdings_passUntil _ _ session.host
  | call _ name arguments inductionHypothesis => exact .call inductionHypothesis name arguments
  | bind _ _ first next => exact .bind first next
  | caught _ inductionHypothesis => exact .caught inductionHypothesis

/-- What is permitted keeps what is stable, whatever is in hand meanwhile. -/
theorem Permitted.keeps
    {Holds : Multiset Possession → Host → Prop}
    {step : SessionM α}
    (isPermitted : Permitted step)
    (stable : Stable Holds)
    (hand : Multiset Possession) :
    Keeps (Holds hand) step := by
  induction isPermitted generalizing hand with
  | aside leavesAlone =>
      constructor <;> intro session value later holds ran
      all_goals
        refine stable (.aside ?_) holds
        rw [← leavesAlone session, ran]
  | awaits => exact (Scheduler.ensures_await stable.lasting).ofNever fun _ _ => id
  | passes time => exact keeps_changeHost fun host holds => stable.lasting.pass time holds
  | call _ name arguments inductionHypothesis =>
      exact Natives.keeps_call stable.lasting inductionHypothesis name arguments
  | bind _ _ keepsFirst keepsNext => exact (keepsFirst hand).bind fun value => keepsNext value hand
  | caught _ inductionHypothesis =>
      exact (inductionHypothesis hand).caught.ofNever fun _ _ holds => holds

/-- A step that leaves the books to the functions of the host keeps what is lasting. -/
theorem Compliant.keeps
    {Holds : Multiset Possession → Host → Prop}
    {step : SessionM α}
    (isCompliant : Compliant step)
    (lasting : Lasting Holds)
    (hand : Multiset Possession) :
    Keeps (Holds hand) step := by
  induction isCompliant generalizing hand with
  | aside leavesAlone =>
      constructor <;> intro session value later holds ran
      all_goals
        obtain ⟨same, sameBooks⟩ := leavesAlone session
        rw [ran] at same sameBooks
        exact lasting.deed (.aside same) sameBooks holds
  | awaits => exact (Scheduler.ensures_await lasting).ofNever fun _ _ => id
  | passes time => exact keeps_changeHost fun host holds => lasting.pass time holds
  | call _ name arguments inductionHypothesis =>
      exact Natives.keeps_call lasting inductionHypothesis name arguments
  | bind _ _ keepsFirst keepsNext => exact (keepsFirst hand).bind fun value => keepsNext value hand
  | caught _ inductionHypothesis =>
      exact (inductionHypothesis hand).caught.ofNever fun _ _ holds => holds

/-! ## Steps that leave the host alone -/

theorem compliant_pure (value : α) : Compliant (pure value : SessionM α) :=
  .aside fun _ => ⟨rfl, rfl⟩

theorem permitted_pure (value : α) : Permitted (pure value : SessionM α) :=
  (compliant_pure value).permitted

theorem compliant_throw (interruption : Interruption) :
    Compliant (throw interruption : SessionM α) :=
  .aside fun _ => ⟨rfl, rfl⟩

theorem compliant_get : Compliant (get : SessionM Session) :=
  .aside fun _ => ⟨rfl, rfl⟩

/-- What leaves the host alone complies. -/
theorem compliant_modify
    {change : Session → Session}
    (leavesAlone : ∀ session, (change session).host = session.host) :
    Compliant (modify change : SessionM Unit) :=
  .aside fun session =>
    ⟨congrArg Host.affairs (leavesAlone session), congrArg Host.books (leavesAlone session)⟩

theorem compliant_theHost : Compliant theHost :=
  .aside fun _ => ⟨rfl, rfl⟩

theorem permitted_theHost : Permitted theHost :=
  compliant_theHost.permitted

/-- A term of a script is evaluated without the host. -/
theorem compliant_valueOf
    (arguments : List Value)
    (term : Term) :
    Compliant (valueOf arguments term) :=
  .aside fun _ => ⟨rfl, rfl⟩

theorem compliant_noteEndpoints (values : List Value) : Compliant (noteEndpoints values) :=
  .aside fun _ => ⟨rfl, rfl⟩

theorem compliant_note (entry : LogEntry) : Compliant (note entry) :=
  .aside fun _ => ⟨rfl, rfl⟩

theorem compliant_countCall (name : String) : Compliant (countCall name) :=
  .aside fun _ => ⟨rfl, rfl⟩

theorem compliant_converted (result : Except ConversionError α) : Compliant (converted result) := by
  cases result <;> exact .aside fun _ => ⟨rfl, rfl⟩

/-- What is permitted can be reported. -/
theorem Permitted.reported
    {step : SessionM α}
    (isPermitted : Permitted step) :
    Permitted (reported step) :=
  .bind isPermitted.caught fun _ => permitted_pure _

/-- What complies can be reported. -/
theorem Compliant.reported
    {step : SessionM α}
    (isCompliant : Compliant step) :
    Compliant (reported step) :=
  .bind isCompliant.caught fun _ => compliant_pure _

/-! ## Actions and acts -/

section Acting

variable {invoke : Invoke}
  (calls : ∀ function arguments, Compliant (invoke function arguments))

include calls

/-- A script that settles an operation waits for it by lawful calls. -/
theorem compliant_settle
    (operation : Value)
    (fuel : Nat) :
    Compliant (settle invoke operation fuel) := by
  induction fuel with
  | zero => exact compliant_throw _
  | succ fuel inductionHypothesis =>
      refine (Compliant.call calls _ _).bind fun status => ?_
      split
      · split
        · refine Compliant.awaits.bind fun waited => ?_
          split
          · exact inductionHypothesis
          · exact compliant_throw _
        · exact compliant_pure _
      · exact compliant_pure _

/-- A script that pumps a connection does so by lawful calls. -/
theorem compliant_pump
    (connection : Value)
    (least fuel : Nat)
    (delivered : Int) :
    Compliant (pump invoke connection least fuel delivered) := by
  induction fuel generalizing delivered with
  | zero => exact compliant_pure _
  | succ fuel inductionHypothesis =>
      refine (Compliant.call calls _ _).bind fun result => ?_
      extract_lets count
      split
      · exact compliant_pure _
      · split
        · exact (Compliant.passes _).bind fun _ => compliant_pure _
        · exact inductionHypothesis _

/-- An action of a script makes lawful calls only. -/
theorem compliant_act
    (arguments : List Value)
    (action : Action) :
    Compliant (act invoke arguments action) := by
  cases action with
  | call function terms => exact compliant_get.bind fun _ => .call calls _ _
  | print terms => exact compliant_get.bind fun _ => .call calls _ _
  | get property => exact compliant_theHost.bind fun _ => compliant_pure _
  | settle name =>
      exact (compliant_valueOf _ _).bind fun _ => compliant_theHost.bind fun _ =>
        compliant_settle calls _ _
  | pump name least => exact (compliant_valueOf _ _).bind fun _ => compliant_pump calls _ _ _ _
  | defer function => exact .aside fun _ => ⟨rfl, rfl⟩
  | define name term => exact .aside fun _ => ⟨rfl, rfl⟩

/-- A step of a script makes lawful calls only. -/
theorem compliant_perform
    (arguments : List Value)
    (step : Step) :
    Compliant (perform invoke arguments step) := by
  refine (compliant_act calls _ _).caught.bind fun result => ?_
  extract_lets answering
  have isCompliant : Compliant (answering ()) := compliant_pure _
  split
  · exact Compliant.bind (compliant_modify fun _ => rfl) fun _ => isCompliant
  · exact isCompliant

/-- The steps of a script make lawful calls only. -/
theorem compliant_performSteps
    (arguments : List Value)
    (steps : List Step) :
    Compliant (performSteps invoke arguments steps) := by
  induction steps with
  | nil => exact compliant_pure _
  | cons step steps inductionHypothesis =>
      refine (compliant_perform calls arguments step).bind fun result =>
        (compliant_note _).bind fun _ => ?_
      split
      · split
        · exact compliant_throw _
        · exact inductionHypothesis
      · exact inductionHypothesis

/-- An act of a script makes lawful calls only. -/
theorem compliant_performAct
    (arguments : List Value)
    (act : Act) :
    Compliant (performAct invoke arguments act) := by
  refine (compliant_performSteps calls _ _).bind fun _ => ?_
  split
  · exact compliant_valueOf _ _
  · exact (compliant_valueOf _ _).bind fun _ => compliant_throw _

end Acting

/-! ## Calls and requests -/

/-- Functions that a session calls for its script are steps of the script, however deep the
calls within calls are. -/
theorem compliant_invokeWithin
    (depth : Nat)
    (function : Function)
    (arguments : List Value) :
    Compliant (invokeWithin depth function arguments) := by
  induction depth generalizing function arguments with
  | zero => exact compliant_throw _
  | succ depth inductionHypothesis =>
      cases function with
      | script name =>
          refine (compliant_note _).bind fun _ => (compliant_countCall _).bind fun _ =>
            compliant_get.bind fun _ => ?_
          exact compliant_performAct inductionHypothesis _ _
      | host name => exact .call inductionHypothesis _ _

/-- A function of a script makes lawful calls only. -/
theorem compliant_invoke
    (function : Function)
    (arguments : List Value) :
    Compliant (invoke function arguments) :=
  compliant_invokeWithin callDepth function arguments

/-- A function of a script does what is permitted. -/
theorem permitted_invoke
    (function : Function)
    (arguments : List Value) :
    Permitted (invoke function arguments) :=
  (compliant_invoke function arguments).permitted

/-- A function of a script is scripted. -/
theorem scripted_invoke
    (function : Function)
    (arguments : List Value) :
    Scripted (invoke function arguments) :=
  (permitted_invoke function arguments).scripted

/-- The jobs of a script make lawful calls only. -/
theorem compliant_runJobs (fuel : Nat) : Compliant (runJobs fuel) := by
  induction fuel with
  | zero => exact compliant_throw _
  | succ fuel inductionHypothesis =>
      refine compliant_get.bind fun session => ?_
      split
      · exact compliant_pure _
      · exact Compliant.bind (compliant_modify fun _ => rfl) fun _ =>
          (compliant_invoke _ _).caught.bind fun _ => inductionHypothesis

/-- Evaluate a program and make the deferred calls, without regard to requests to end. -/
def evaluated (program : Act) : SessionM (Except ProgramError Int32) := do
  let evaluated ← reported (performAct invoke [] program)
  if evaluated.isOk then runJobs jobFuel
  pure ((evaluated.map codeOf).mapError ProgramError.uncaught)

/-- A program is evaluated before anybody asks whether the script wants to end. -/
theorem execute_eq (program : Act) :
    execute program =
      evaluated program >>= fun own => do return (← takeExit).elim own .ok := by
  simp only [execute, evaluated, bind_assoc]
  refine bind_congr fun result => ?_
  split
  · simp only [bind_assoc, pure_bind]
    exact bind_congr fun _ => bind_congr fun code? => by cases code? <;> rfl
  · simp only [pure_bind]
    exact bind_congr fun code? => by cases code? <;> rfl

theorem compliant_evaluated (program : Act) : Compliant (evaluated program) := by
  refine (compliant_performAct compliant_invoke _ _).reported.bind fun evaluated => ?_
  extract_lets ending
  have isCompliant : Compliant (ending ()) := compliant_pure _
  split
  · exact (compliant_runJobs _).bind fun _ => isCompliant
  · exact isCompliant

/-- A program that is executed does what is permitted. -/
theorem permitted_execute (program : Act) : Permitted (execute program) := by
  rw [execute_eq]
  refine (compliant_evaluated program).permitted.bind fun own => ?_
  exact Permitted.bind (.aside fun _ => rfl) fun code? => permitted_pure _

theorem compliant_evaluateJson (program : Act) : Compliant (evaluateJson program) := by
  refine (compliant_performAct compliant_invoke _ _).reported.bind fun evaluated => ?_
  cases evaluated <;> exact compliant_pure _

theorem compliant_callFunction (name : String) : Compliant (callFunction name) := by
  refine Compliant.bind (Compliant.reported ?_) fun called => ?_
  · exact compliant_get.bind fun _ => (compliant_converted _).bind fun function =>
      (compliant_invoke function []).bind fun _ => compliant_pure _
  · cases called with
    | error message => exact compliant_pure _
    | ok => exact (compliant_runJobs _).bind fun _ => compliant_pure _

theorem compliant_writeProgram
    (path : String)
    (program : Act) :
    Compliant (writeProgram path program) :=
  .aside fun _ => ⟨rfl, rfl⟩

/-- A program in a file that is executed does what is permitted. -/
theorem permitted_executeFile (path : String) : Permitted (executeFile path) := by
  refine permitted_theHost.bind fun host => ?_
  split
  · exact permitted_pure _
  · exact compliant_get.permitted.bind fun _ => permitted_execute _

/-- Whatever is asked of a session, it does what a script may do. -/
theorem permitted_answer (request : Request) : Permitted (answer request) := by
  cases request with
  | step step =>
      exact (compliant_perform compliant_invoke _ _).permitted.bind fun _ =>
        (compliant_noteEndpoints _).permitted.bind fun _ => permitted_pure _
  | execute program => exact (permitted_execute _).bind fun _ => permitted_pure _
  | evaluateJson program =>
      exact (compliant_evaluateJson _).permitted.bind fun _ => permitted_pure _
  | callFunction name => exact (compliant_callFunction _).permitted.bind fun _ => permitted_pure _
  | executeFile path program? =>
      cases program? with
      | none => exact (permitted_executeFile _).bind fun _ => permitted_pure _
      | some program =>
          exact (compliant_writeProgram _ _).permitted.bind fun _ =>
            (permitted_executeFile _).bind fun _ => permitted_pure _
  | settings => exact permitted_theHost.bind fun _ => permitted_pure _

end Session
end ScriptHost
