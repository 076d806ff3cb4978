import ScriptHost.Proofs.FileSystem.Trees
import ScriptHost.Proofs.Files.Tours

/-!
# Surveys of a listing

A listing goes through a directory and, if asked for, through those below it. Its survey tells which
directories are read and what is shown; the file system stays as it is. Every listing of a directory
makes a survey, since what leads to a directory is short enough.
-/

namespace ScriptHost
namespace Files

open FileSystem ScriptHost.Path

/-- What a listing has to go through: a directory, or entries of it. -/
inductive Search
  | tree (path : String)
  | entries (path : String) (names : List String)

/-- What a listing shows of one entry before what lies below it. -/
def shownEntry
    (system : FileSystem)
    (kind : EntryKind)
    (path : String) : List String :=
  if kind.shows (system.isDirectory path) then [path] else []

/-- The survey of a search, with the directories that are read and the paths that are shown. -/
inductive Survey (system : FileSystem) (kind : EntryKind) (recursive : Bool) :
    Search → List Location → List String → Prop
  | reads {path : String} {location : Location} {names : List String} {visited : List Location}
      {found : List String}
      (isAt : system.directoryAt path = .ok location)
      (perm : names.Perm (system.names location))
      (goesOn : Survey system kind recursive (.entries path names) visited found) :
      Survey system kind recursive (.tree path) (location :: visited) found
  | done {path : String} :
      Survey system kind recursive (.entries path []) [] []
  | enters {path name : String} {names : List String} {visited more : List Location}
      {found rest : List String}
      (isEntered : (recursive && system.isDirectory (join path name)) = true)
      (goesIn : Survey system kind recursive (.tree (join path name)) visited found)
      (goesOn : Survey system kind recursive (.entries path names) more rest) :
      Survey system kind recursive (.entries path (name :: names)) (visited ++ more)
        (shownEntry system kind (join path name) ++ found ++ rest)
  | passes {path name : String} {names : List String} {visited : List Location}
      {rest : List String}
      (notEntered : (recursive && system.isDirectory (join path name)) = false)
      (goesOn : Survey system kind recursive (.entries path names) visited rest) :
      Survey system kind recursive (.entries path (name :: names)) visited
        (shownEntry system kind (join path name) ++ rest)

variable {system : FileSystem} {kind : EntryKind} {recursive : Bool} {path name : String}
  {names : List String} {visited : List Location} {found : List String} {search : Search}

/-! ## Every listing makes a survey -/

section Entry

variable {collectBelow : String → VisitM (List String)}
  {plainBelow : String → FileM (List String)} {directory : String}

theorem answers_collectEntry_of_entered
    (isEntered : (recursive && system.isDirectory (join directory name)) = true)
    (answers : Answers system (collectBelow (join directory name))
      (plainBelow (join directory name)) found visited) :
    Answers system (collectEntry kind recursive collectBelow directory name)
      (collectEntry kind recursive plainBelow directory name)
      (shownEntry system kind (join directory name) ++ found) visited := by
  have asks : Answers system (leadsToDirectory (join directory name))
      (leadsToDirectory (join directory name)) (system.isDirectory (join directory name)) [] :=
    ⟨rfl, records_lift _ system⟩
  have isFound : (if kind.shows (system.isDirectory (join directory name)) then
      join directory name :: found else found) =
      shownEntry system kind (join directory name) ++ found := by
    rw [shownEntry]
    split_ifs <;> rfl
  refine asks.bind ?_
  rw [isEntered, ← isFound, ← List.append_nil visited]
  exact answers.bind (answers_pure _)

theorem answers_collectEntry_of_passed
    (notEntered : (recursive && system.isDirectory (join directory name)) = false) :
    Answers system (collectEntry kind recursive collectBelow directory name)
      (collectEntry kind recursive plainBelow directory name)
      (shownEntry system kind (join directory name)) [] := by
  have asks : Answers system (leadsToDirectory (join directory name))
      (leadsToDirectory (join directory name)) (system.isDirectory (join directory name)) [] :=
    ⟨rfl, records_lift _ system⟩
  refine asks.bind ?_
  rw [notEntered]
  exact (answers_pure []).bind (answers_pure _)

end Entry

/-- The survey of the entries of a directory, if there is one of each entry that is entered. -/
theorem exists_survey_entries
    {collectBelow : String → VisitM (List String)}
    {plainBelow : String → FileM (List String)}
    (surveys : ∀ name ∈ names, (recursive && system.isDirectory (join path name)) = true →
      ∃ visited found, Survey system kind recursive (.tree (join path name)) visited found ∧
        Answers system (collectBelow (join path name)) (plainBelow (join path name)) found
          visited) :
    ∃ visited found, Survey system kind recursive (.entries path names) visited found.flatten ∧
      Answers system (names.mapM (collectEntry kind recursive collectBelow path))
        (names.mapM (collectEntry kind recursive plainBelow path)) found visited := by
  induction names with
  | nil => exact ⟨[], [], .done, answers_pure []⟩
  | cons name names inductionHypothesis =>
      rw [List.mapM_cons, List.mapM_cons]
      obtain ⟨more, rest, goesOn, answersOn⟩ := inductionHypothesis
        fun name isIn => surveys name (List.mem_cons_of_mem _ isIn)
      have answersAll (first : List String) :
          Answers system
            (names.mapM (collectEntry kind recursive collectBelow path) >>= fun rest =>
              pure (first :: rest))
            (names.mapM (collectEntry kind recursive plainBelow path) >>= fun rest =>
              pure (first :: rest)) (first :: rest) more :=
        List.append_nil more ▸ answersOn.bind (answers_pure (first :: rest))
      cases isEntered : recursive && system.isDirectory (join path name) with
      | true =>
          obtain ⟨visited, found, goesIn, answers⟩ := surveys name (by simp) isEntered
          exact ⟨visited ++ more, (shownEntry system kind (join path name) ++ found) :: rest,
            .enters isEntered goesIn goesOn,
            (answers_collectEntry_of_entered isEntered answers).bind (answersAll _)⟩
      | false =>
          exact ⟨more, shownEntry system kind (join path name) :: rest, .passes isEntered goesOn,
            (answers_collectEntry_of_passed isEntered).bind (answersAll _)⟩

/-- The listing of a directory makes a survey: names make a path longer, and no path that is too
long leads to a directory. -/
theorem exists_survey_collect
    {reading : Reading}
    (isReading : IsReading reading)
    (isTree : system.IsTree)
    (kind : EntryKind)
    (recursive : Bool)
    (depth : Nat)
    (isDirectory : system.isDirectory path = true)
    (isDeep : pathLimit ≤ path.utf8ByteSize + depth) :
    ∃ visited found, Survey system kind recursive (.tree path) visited found ∧
      Answers system (collect (namesVisiting reading) kind recursive depth path)
        (collect (namesIn reading) kind recursive depth path) found visited := by
  have isShort := isShort_of_isDirectory isDirectory
  induction depth generalizing path with
  | zero => omega
  | succ depth inductionHypothesis =>
      rcases isReading.cases system path with
        ⟨location, names, isAt, perm, ran, records⟩ | ⟨problem, isMissing, -, -⟩
      · have surveys : ∀ name ∈ names, (recursive && system.isDirectory (join path name)) = true →
            ∃ visited found, Survey system kind recursive (.tree (join path name)) visited found ∧
              Answers system
                (collect (namesVisiting reading) kind recursive depth (join path name))
                (collect (namesIn reading) kind recursive depth (join path name)) found
                visited := by
          intro name isIn isEntered
          have isName : IsName name := isTree.isName_of_holds ⟨location, isAt, perm.mem_iff.mp isIn⟩
          have isLonger := @utf8ByteSize_join path name isName
          have isBelow := (Bool.and_eq_true_iff.mp isEntered).2
          exact inductionHypothesis isBelow (by omega) (isShort_of_isDirectory isBelow)
        obtain ⟨visited, found, survey, answers⟩ := exists_survey_entries surveys
        have reads : Answers system (namesVisiting reading path) (namesIn reading path) names
          [location] := ⟨ran, records⟩
        exact ⟨location :: visited, found.flatten, .reads isAt perm survey,
          reads.bind (List.append_nil visited ▸ answers.bind (answers_pure found.flatten))⟩
      · rw [isDirectory_iff, isMissing] at isDirectory
        simp at isDirectory

end Files
end ScriptHost
