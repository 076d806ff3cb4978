import ScriptHost.Proofs.Host.Deeds

/-!
# Requests to end

A script may ask to end as often as it likes. The code that it asked for last is wanted until a
program takes it, and a pump of events tells the script of no other code. Functions of the host ask
and tell, but they take nothing.
-/

namespace ScriptHost

/-- The code for which an occasion asks. -/
def ExitOccasion.asked? : ExitOccasion → Option Int32
  | .asked code => some code
  | .recalled _ => none
  | .taken => none

namespace Exits

variable {exits earlier meanwhile : Exits}

/-- The last code that the script asked for. -/
def lastAsked? (exits : Exits) : Option Int32 :=
  (exits.filterMap ExitOccasion.asked?).getLast?

/-- The code that is wanted after an occasion, given the one that was wanted before. -/
def wantedAfter (wanted? : Option Int32) : ExitOccasion → Option Int32
  | .asked code => some code
  | .recalled _ => wanted?
  | .taken => none

/-- The code with which the script wants to end: the last one that it asked for, as long as no
program has taken it. -/
def wanted? (exits : Exits) : Option Int32 :=
  exits.foldl wantedAfter none

/-- The script is told only of a code that is wanted. -/
def RecallsWanted (exits : Exits) : Prop :=
  ∀ before code after, exits = before ++ .recalled code :: after → wanted? before = some code

/-- What is wanted changes with the last occasion. -/
theorem wanted?_concat
    (exits : Exits)
    (occasion : ExitOccasion) :
    wanted? (exits ++ [occasion]) = wantedAfter exits.wanted? occasion :=
  List.foldl_concat ..

/-- As long as no program takes a code, the last one that the script asks for is wanted, or else
the one that was wanted before. -/
theorem wanted?_append
    (exits : Exits)
    (noneTaken : .taken ∉ meanwhile) :
    wanted? (exits ++ meanwhile) = meanwhile.lastAsked?.or exits.wanted? := by
  -- The record grows at its end, and so does what was asked for.
  induction meanwhile using List.reverseRecOn with
  | nil => rw [List.append_nil]; rfl
  | append_singleton meanwhile occasion inductionHypothesis =>
      rw [List.mem_append, not_or, List.mem_singleton] at noneTaken
      rw [← List.append_assoc, wanted?_concat, lastAsked?, List.filterMap_append]
      cases occasion with
      | asked code => exact congrArg (Option.or · _) List.getLast?_concat.symm
      | recalled code =>
          have asksNothing : [ExitOccasion.recalled code].filterMap ExitOccasion.asked? = [] := rfl
          rw [asksNothing, List.append_nil]
          exact inductionHypothesis noneTaken.1
      | taken => exact absurd rfl noneTaken.2

/-- What is recalled was wanted, if the new occasion recalls what is wanted. -/
theorem RecallsWanted.concat
    {occasion : ExitOccasion}
    (recallsWanted : exits.RecallsWanted)
    (admits : ∀ code, occasion = .recalled code → exits.wanted? = some code) :
    RecallsWanted (exits ++ [occasion]) := by
  intro before code after same
  rcases List.eq_nil_or_concat after with rfl | ⟨after, last, rfl⟩
  · obtain ⟨rfl, sameLast⟩ := List.append_inj' same rfl
    exact admits code (List.singleton_inj.mp sameLast)
  · rw [List.concat_eq_append, ← List.cons_append, ← List.append_assoc] at same
    exact recallsWanted before code after (List.append_inj' same rfl).1

end Exits

/-- A host keeps the code that is wanted, and has told the script of no other. -/
structure ExitsKept (host : Host) : Prop where
  request_eq : host.exitRequest? = host.exits.wanted?
  recallsWanted : host.exits.RecallsWanted

namespace ExitsKept

variable {host later : Host}

/-- The exits are kept whatever else of a host changes. -/
theorem congr
    (kept : ExitsKept host)
    (same : later.exitState = host.exitState) :
    ExitsKept later := by
  obtain ⟨sameRequest, sameExits⟩ := Prod.mk.inj same
  exact ⟨by rw [sameRequest, sameExits, kept.request_eq], sameExits ▸ kept.recallsWanted⟩

/-- The exits are kept when an exit is asked for. -/
theorem askExit
    (kept : ExitsKept host)
    (code : Int32) :
    ExitsKept (host.askExit code) where
  request_eq := (Exits.wanted?_concat host.exits (.asked code)).symm
  recallsWanted := kept.recallsWanted.concat nofun

/-- The exits are kept when an exit that is wanted is recalled. -/
theorem recallExit
    {code : Int32}
    (kept : ExitsKept host)
    (wanted : host.exitRequest? = some code) :
    ExitsKept (host.recallExit code) where
  request_eq := kept.request_eq.trans (Exits.wanted?_concat host.exits (.recalled code)).symm
  recallsWanted := kept.recallsWanted.concat fun _ same => by
    rw [← kept.request_eq, wanted, ExitOccasion.recalled.inj same]

/-- The exits are kept when an exit is taken. -/
theorem takeExit (kept : ExitsKept host) : ExitsKept host.takeExit.2 where
  request_eq := (Exits.wanted?_concat host.exits .taken).symm
  recallsWanted := kept.recallsWanted.concat nofun

end ExitsKept

/-- What befell requests to end after a record: nothing was taken, but for the ending. -/
structure ExitsSince
    (earlier ending : Exits)
    (host : Host) : Prop where
  kept : ExitsKept host
  goesOn : ∃ meanwhile : Exits, .taken ∉ meanwhile ∧ host.exits = earlier ++ (meanwhile ++ ending)

namespace ExitsSince

variable {earlier ending : Exits} {host later : Host}

theorem refl (kept : ExitsKept host) : ExitsSince host.exits [] host :=
  ⟨kept, [], List.not_mem_nil, (List.append_nil _).symm⟩

theorem congr
    (since : ExitsSince earlier ending host)
    (same : later.exitState = host.exitState) :
    ExitsSince earlier ending later := by
  obtain ⟨meanwhile, noneTaken, goesOn⟩ := since.goesOn
  exact ⟨since.kept.congr same, meanwhile, noneTaken, (Prod.mk.inj same).2.trans goesOn⟩

private theorem concat
    {occasion : ExitOccasion}
    (since : ExitsSince earlier [] host)
    (kept : ExitsKept later)
    (noted : later.exits = host.exits ++ [occasion])
    (notTaken : occasion ≠ .taken) :
    ExitsSince earlier [] later := by
  obtain ⟨meanwhile, noneTaken, goesOn⟩ := since.goesOn
  refine ⟨kept, meanwhile ++ [occasion], ?_, ?_⟩
  · rw [List.mem_append, List.mem_singleton, not_or]
    exact ⟨noneTaken, notTaken.symm⟩
  · rw [noted, goesOn, List.append_nil, List.append_nil, List.append_assoc]

/-- An exit that is taken is the last occasion. -/
theorem takeExit (since : ExitsSince earlier [] host) :
    ExitsSince earlier [.taken] host.takeExit.2 := by
  obtain ⟨meanwhile, noneTaken, goesOn⟩ := since.goesOn
  refine ⟨since.kept.takeExit, meanwhile, noneTaken, ?_⟩
  rw [List.append_nil] at goesOn
  rw [Host.takeExit, goesOn, List.append_assoc]

/-- What the script was told of after a record, it had asked for by then. If nothing was wanted
before, it had done so after the record, too. -/
theorem lastAsked?_of_recalled
    {before after : Exits}
    {code : Int32}
    (since : ExitsSince earlier ending host)
    (isEnding : ending = [] ∨ ending = [.taken])
    (nothingWanted : earlier.wanted? = none)
    (recalled : host.exits = earlier ++ (before ++ .recalled code :: after)) :
    before.lastAsked? = some code := by
  obtain ⟨meanwhile, noneTaken, goesOn⟩ := since.goesOn
  have same := List.append_cancel_left (goesOn.symm.trans recalled)
  -- Only the last occasion may be that a code is taken, and this one is another.
  have notTaken : .taken ∉ before := by
    rcases List.append_eq_append_iff.mp same with ⟨first, rfl, rest⟩ | ⟨first, rfl, rest⟩
    · rcases isEnding with rfl | rfl
      · cases first <;> cases rest
      · cases first with
        | nil => cases rest
        | cons => simp at rest
    · exact fun isTaken => noneTaken (List.mem_append_left _ isTaken)
  rw [← List.append_assoc] at recalled
  have wanted := since.kept.recallsWanted _ _ _ recalled
  rwa [Exits.wanted?_append _ notTaken, nothingWanted, Option.or_none] at wanted

end ExitsSince

/-- Functions of the host keep the record, and take nothing. -/
theorem lasting_exitsSince (earlier : Exits) : Lasting fun _ => ExitsSince earlier [] := by
  intro hand host laterHand later doing since
  cases doing with
  | deed _ same => exact since.congr (congrArg Prod.fst same)
  | works isNext => exact since.congr (Host.exitState_perform _ _)
  | asks code => exact since.concat (since.kept.askExit code) rfl nofun
  | recalls wanted => exact since.concat (since.kept.recallExit wanted) rfl nofun
  | claims taken =>
      obtain ⟨-, rfl⟩ := Host.takeOperation_eq_some taken
      exact since.congr rfl
  | creates | shows | misses | hands => exact since.congr rfl

end ScriptHost
