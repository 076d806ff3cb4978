import ScriptHost.Proofs.FileSystem.Descent
import ScriptHost.Proofs.FileSystem.Requests

/-!
# Places of targets

Where a directory or a file is to be made at names below a directory, and no link stands there, what
is made lies where the names lead to: above the last of them, there, or below. A directory that has
been made is the one that its path leads to.
-/

namespace ScriptHost
namespace FileSystem

variable {before after system : FileSystem} {path parent name source : String}
  {location base : Location} {names way rest : List String} {depth : Nat}

/-! ## Made directories -/

/-- A directory that has been made is where its path leads to. -/
theorem isDirectory_of_makeDirectory (makes : system.makeDirectory path = .ok after) :
    after.isDirectory path = true := by
  obtain ⟨directory, name, slash, walks, isShort, isNone, rfl⟩ := exists_put_of_makeDirectory makes
  have noLink (target : String) : system.node? (directory ++ [name]) ≠ some (.link target) := by
    simp [isNone]
  refine isDirectory_iff.mpr ⟨_, directoryAt_eq_ok_iff.mpr ⟨_, (grows_put (isNone ▸ .made)
    |>.walk_follow_of_place isShort noLink walks), find_eq_directory_iff.mpr ?_, rfl⟩⟩
  rintro _ _ _ ⟨⟩
  exact node?_put_self ..

/-- Where a directory is, none is made. -/
theorem makeDirectory_ne_ok (isDirectory : system.isDirectory path = true) :
    system.makeDirectory path ≠ .ok after := by
  intro makes
  obtain ⟨directory, name, slash, walks, isShort, isNone, -⟩ := exists_put_of_makeDirectory makes
  have walksToo := (Grows.refl system).walk_follow_of_place isShort (by simp [isNone]) walks
  obtain ⟨location, isAt⟩ := isDirectory_iff.mp isDirectory
  obtain ⟨goal, walksElse, finds, -⟩ := directoryAt_eq_ok_iff.mp isAt
  obtain rfl := Except.ok.inj (walksToo.symm.trans walksElse)
  rw [find_eq_directory_iff.mp finds _ _ _ rfl] at isNone
  cases isNone

/-- A path that was just made leads to a location. -/
theorem exists_standsFor_of_makeLastDirectory
    (makes : system.makeLastDirectory path = (.ok (), after)) :
    ∃ location, after.StandsFor path location := by
  rw [makeLastDirectory] at makes
  split at makes
  next made =>
    cases makes
    exact (isDirectory_iff.mp (isDirectory_of_makeDirectory made)).imp fun _ => .inr
  next =>
    split_ifs at makes with isDirectory <;> cases makes
    exact (isDirectory_iff.mp isDirectory).imp fun _ => .inr

/-- Where directories have been made, their path leads to one. -/
theorem exists_standsFor_of_makeDirectories
    (makes : system.makeDirectories depth path = (.ok (), after)) :
    ∃ location, after.StandsFor path location := by
  cases depth with
  | zero => cases makes
  | succ depth =>
      rw [makeDirectories] at makes
      split at makes
      next isEmpty =>
        cases makes
        exact ⟨_, .inl ⟨isEmpty, rfl⟩⟩
      next =>
        split at makes
        next made =>
          cases makes
          exact (isDirectory_iff.mp (isDirectory_of_makeDirectory made)).imp fun _ => .inr
        next =>
          split at makes
          next => cases makes
          next =>
            split at makes
            next => exact exists_standsFor_of_makeLastDirectory makes
            next => cases makes
        next =>
          split_ifs at makes with isDirectory <;> cases makes
          exact (isDirectory_iff.mp isDirectory).imp fun _ => .inr

/-! ## Where a directory is already -/

/-- What is found with every link followed is found as a place. -/
def FindsPlace (first again : Continue) : Prop :=
  ∀ start names slash goal, first start names slash = .ok goal →
    ∃ place, again start names slash = .ok place

/-- A last name always has a place, whether or not something stands there. -/
theorem exists_walkLast_place
    (continue? : Continue)
    (directory : Location)
    (name : String)
    (slash : Bool) :
    ∃ place, walkLast system .place continue? directory name slash = .ok place := by
  simp only [walkLast_eq_ok_iff]
  by_cases isHere : name = "."
  · exact ⟨_, .here isHere rfl⟩
  by_cases isAbove : name = ".."
  · exact ⟨_, .above isAbove rfl⟩
  exact ⟨_, .placed isHere isAbove rfl rfl⟩

/-- Names that can be followed find the place that they lead to. -/
theorem findsPlace_walkNames
    {first again : Continue}
    (findsPlace : FindsPlace first again) :
    FindsPlace (walkNames system .follow first) (walkNames system .place again) := by
  intro directory names slash goal walks
  induction names generalizing directory with
  | nil => exact ⟨_, rfl⟩
  | cons name names inductionHypothesis =>
      cases names with
      | nil => exact exists_walkLast_place ..
      | cons next rest =>
          rw [walkNames] at walks ⊢
          split_ifs at walks ⊢ with isHere isAbove isLong
          · exact inductionHypothesis _ walks
          · exact inductionHypothesis _ walks
          · split at walks
            next => cases walks
            next => cases walks
            next => exact inductionHypothesis _ walks
            next => exact findsPlace _ _ _ _ walks

/-- Links that can be followed find the place that they lead to. -/
theorem findsPlace_walkLinks (links : Nat) :
    FindsPlace (walkLinks system .follow links) (walkLinks system .place links) := by
  induction links with
  | zero =>
      refine findsPlace_walkNames fun _ _ _ _ walks => ?_
      cases walks
  | succ links inductionHypothesis => exact findsPlace_walkNames inductionHypothesis

/-- Where a directory is, all that is asked for to be made is there already. -/
theorem makeDirectories_of_isDirectory (isDirectory : system.isDirectory path = true) :
    (system.makeDirectories depth path).2 = system := by
  have notMissing : system.makeDirectory path ≠ .error .noSuchFile := by
    obtain ⟨location, isAt⟩ := isDirectory_iff.mp isDirectory
    obtain ⟨goal, walks, -⟩ := directoryAt_eq_ok_iff.mp isAt
    rw [walk, bind_eq_ok_iff] at walks
    obtain ⟨_, isChecked, walks⟩ := walks
    obtain ⟨place, isPlace⟩ := findsPlace_walkLinks _ _ _ _ _ walks
    rw [makeDirectory, walk_of_checked isChecked, isPlace, ok_bind]
    cases place with
    | entry directory name slash =>
        simp only [lookUp]
        split_ifs
        · simp [error_bind]
        · rw [ok_bind]
          split <;> simp [pure, Except.pure, throw, throwThe, MonadExceptOf.throw]
    | _ => simp [throw, throwThe, MonadExceptOf.throw]
  cases depth with
  | zero => rfl
  | succ depth =>
      rw [makeDirectories]
      split
      next => rfl
      next =>
        split
        next makes => exact (makeDirectory_ne_ok isDirectory makes).elim
        next isMissing => exact (notMissing isMissing).elim
        next => rfl

/-! ## Names that go along others -/

/-- Names that lead on the way of others: to a part of it, to its end or beyond. -/
def GoesAlong (names rest : List String) : Prop :=
  rest <+: names ∨ names <+: rest

instance (names rest : List String) : Decidable (GoesAlong names rest) :=
  inferInstanceAs (Decidable (rest <+: names ∨ names <+: rest))

/-- What goes along some names does so from their front on. -/
theorem GoesAlong.ofFront
    (goesAlong : GoesAlong names way)
    (isFront : rest <+: way) :
    GoesAlong names rest := by
  rcases goesAlong with isOnTheWay | ⟨beyond, rfl⟩
  · exact .inl (isFront.trans isOnTheWay)
  · exact List.prefix_or_prefix_of_prefix isFront (List.prefix_append ..)

theorem goesAlong_append (names beyond : List String) : GoesAlong names (names ++ beyond) :=
  .inr (List.prefix_append ..)

/-- A location on the way of names from a base, at its end or beyond. -/
def LiesAlong
    (base : Location)
    (names : List String)
    (location : Location) : Prop :=
  ∃ rest, GoesAlong names rest ∧ location = base ++ rest

/-- What has come to stand anew stands along names from a base. -/
def NewAlong
    (base : Location)
    (names : List String)
    (before after : FileSystem) : Prop :=
  ∀ location, before.node? location = none → (after.node? location).isSome →
    LiesAlong base names location

namespace NewAlong

theorem refl (system : FileSystem) : NewAlong base names system system :=
  fun location isNone stands => by simp [isNone] at stands

/-- What is new along some names is so in two changes. -/
theorem trans
    {between : FileSystem}
    (first : NewAlong base names before between)
    (second : NewAlong base names between after) :
    NewAlong base names before after := by
  intro location isNone stands
  by_cases isMade : (between.node? location).isSome
  · exact first location isNone isMade
  · exact second location (Option.not_isSome_iff_eq_none.mp isMade) stands

end NewAlong

/-- What is put along some names is new along them. -/
theorem newAlong_put
    {node : Node}
    (liesAlong : LiesAlong base names location) :
    NewAlong base names system (system.put location node) := by
  intro other isNone stands
  by_cases isHere : other = location
  · exact isHere ▸ liesAlong
  · rw [node?_put_of_ne isHere, isNone] at stands
    cases stands

/-- No way leads to a directory along names from a base. -/
def StaysApart
    (system : FileSystem)
    (source : String)
    (base : Location)
    (names : List String) : Prop :=
  ∀ way location, system.IsWay source way →
    system.directoryAt (Path.descend source way) = .ok location → ¬LiesAlong base names location

/-- Each way leads to something, and so does each link on it. -/
def MissesNothing
    (system : FileSystem)
    (source : String) : Prop :=
  ∀ way, system.IsWay source way →
    system.status (Path.descend source way) ≠ .error .noSuchFile

/-- Where ways stay apart from what is new, there are no new ways. -/
theorem StaysApart.isWay_of_grown
    (staysApart : before.StaysApart source base names)
    (missesNothing : before.MissesNothing source)
    (newAlong : NewAlong base names before after)
    (grows : Grows before after)
    (isBase : before.node? base = some .directory)
    (isWay : after.IsWay source way) :
    before.IsWay source way := by
  induction way using List.reverseRecOn with
  | nil => trivial
  | append_singleton front last inductionHypothesis =>
      obtain ⟨isWayAbove, location, isAt, isName⟩ := isWay_concat.mp isWay
      have isWayBefore := inductionHypothesis isWayAbove
      have isAtBefore := grows.directoryAt_of_grown (missesNothing front isWayBefore) isAt
      refine isWay_concat.mpr ⟨isWayBefore, location, isAtBefore, mem_names_iff.mpr ?_⟩
      by_contra isNew
      rw [Option.not_isSome_iff_eq_none] at isNew
      obtain ⟨rest, goesAlong, isThere⟩ := newAlong _ isNew (mem_names_iff.mp isName)
      rcases List.eq_nil_or_concat' rest with rfl | ⟨above, name, rfl⟩
      · rw [isThere, List.append_nil, isBase] at isNew
        cases isNew
      · rw [← List.append_assoc] at isThere
        obtain ⟨rfl, -⟩ := List.append_inj' isThere rfl
        exact staysApart front _ isWayBefore isAtBefore
          ⟨above, goesAlong.ofFront (List.prefix_append ..), rfl⟩

/-! ## Placed targets -/

/-- A target that lies at names below a base: where a path that is plainly written stands for the
base, and no link stands along the names. -/
structure IsPlaced
    (system : FileSystem)
    (parent : String)
    (base : Location)
    (names : List String) : Prop where
  standsFor : system.StandsFor parent base
  isPlain : Path.IsPlainlyWritten parent
  areNames : ∀ name ∈ names, Path.IsName name
  noLink : ∀ rest target, GoesAlong names rest →
    system.node? (base ++ rest) ≠ some (.link target)

namespace IsPlaced

/-- A place that was found stays the same place as a file system grows. -/
theorem grows
    (isPlaced : before.IsPlaced parent base names)
    (grows : Grows before after) :
    after.IsPlaced parent base names where
  standsFor := isPlaced.standsFor.grows grows
  isPlain := isPlaced.isPlain
  areNames := isPlaced.areNames
  noLink rest target goesAlong isLink :=
    isPlaced.noLink rest target goesAlong ((grows.link_iff target).mp isLink)

/-- There are no links along a place. -/
theorem noLinksAlong
    (isPlaced : system.IsPlaced parent base names)
    (goesAlong : GoesAlong names way) :
    system.NoLinksAlong base way :=
  fun front target isFront => isPlaced.noLink front target (goesAlong.ofFront isFront)

/-- A path below a place is plainly written. -/
theorem isPlainlyWritten_descend
    (isPlaced : system.IsPlaced parent base names)
    (areNames : ∀ name ∈ way, Path.IsName name) :
    Path.IsPlainlyWritten (Path.descend parent way) := by
  induction way using List.reverseRecOn with
  | nil => exact isPlaced.isPlain
  | append_singleton front last inductionHypothesis =>
      rw [Path.descend_concat]
      exact (inductionHypothesis fun name isIn => areNames name (by simp [isIn])).join
        (areNames last (by simp))

section Way

variable (isPlaced : system.IsPlaced parent base names) (areNames : ∀ name ∈ way, Path.IsName name)
  (goesAlong : GoesAlong names way)

include isPlaced areNames goesAlong

/-- What a walk finds at names along those of the target lies there. -/
theorem liesAlong_of_walk
    {purpose : Purpose}
    {directory : Location}
    {slash : Bool}
    (isBelow : way ≠ [])
    (walks : system.walk purpose (Path.descend parent way) = .ok (.entry directory name slash)) :
    LiesAlong base names (directory ++ [name]) := by
  obtain ⟨front, last, rfl⟩ := (List.eq_nil_or_concat' way).resolve_left isBelow
  obtain ⟨rfl, rfl, -⟩ := Goal.entry.inj <|
    eq_entry_of_walk_descend isPlaced.standsFor areNames (isPlaced.noLinksAlong goesAlong) walks
  exact ⟨_, goesAlong, List.append_assoc ..⟩

/-- A directory that is made at a place is new along it. -/
theorem newAlong_makeDirectory
    (makes : system.makeDirectory (Path.descend parent way) = .ok after) :
    NewAlong base names system after := by
  by_cases isBelow : way = []
  · subst isBelow
    rcases isPlaced.standsFor with ⟨rfl, -⟩ | isAt
    · cases makes
    · exact (makeDirectory_ne_ok (isDirectory_iff.mpr ⟨_, isAt⟩) makes).elim
  · obtain ⟨directory, name, slash, walks, -, -, rfl⟩ := exists_put_of_makeDirectory makes
    exact newAlong_put (isPlaced.liesAlong_of_walk areNames goesAlong isBelow walks)

/-- The last directory of a path that is made at a place is new along it. -/
theorem newAlong_makeLastDirectory :
    NewAlong base names system (system.makeLastDirectory (Path.descend parent way)).2 := by
  rw [makeLastDirectory]
  split
  next makes => exact isPlaced.newAlong_makeDirectory areNames goesAlong makes
  next => split <;> exact .refl system

/-- What a copy of a file to names along those of the target makes stands along them. -/
theorem newAlong_copyFile
    {count : Nat}
    (copies : system.copyFile source (Path.descend parent way) = .ok (count, after)) :
    NewAlong base names system after := by
  obtain ⟨origin, place, -, isPlace, -, rfl⟩ := copyFile_eq_ok_iff.mp copies
  obtain ⟨directory, name, rfl, walks, nodeGrows⟩ := exists_place_of_writable isPlace
  by_cases isBelow : way = []
  · subst isBelow
    have notEmpty : parent ≠ "" := by
      rintro rfl
      cases walks
    obtain ⟨goal, walksToo, finds, -⟩ :=
      directoryAt_eq_ok_iff.mp (isPlaced.standsFor.directoryAt notEmpty)
    obtain rfl := Except.ok.inj (walks.symm.trans walksToo)
    have isBlocked := nodeGrows []
    rw [find_eq_directory_iff.mp finds _ _ _ rfl] at isBlocked
    cases isBlocked
  · exact newAlong_put (isPlaced.liesAlong_of_walk areNames goesAlong isBelow walks)

end Way

/-- The directories that are made for names along those of the target stand along them. -/
theorem newAlong_makeDirectories
    (isPlaced : system.IsPlaced parent base names)
    (areNames : ∀ name ∈ way, Path.IsName name)
    (goesAlong : GoesAlong names way)
    (depth : Nat) :
    NewAlong base names system (system.makeDirectories depth (Path.descend parent way)).2 := by
  induction depth generalizing way with
  | zero => exact .refl system
  | succ depth inductionHypothesis =>
      rcases List.eq_nil_or_concat' way with rfl | ⟨front, last, rfl⟩
      · rcases isPlaced.standsFor with ⟨rfl, -⟩ | isAt
        · exact .refl system
        · rw [Path.descend_nil, makeDirectories_of_isDirectory (isDirectory_iff.mpr ⟨_, isAt⟩)]
          exact .refl system
      have areNamesAbove : ∀ name ∈ front, Path.IsName name :=
        fun name isIn => areNames name (by simp [isIn])
      have isAbove : Path.parent? (Path.descend parent (front ++ [last])) =
          some (Path.descend parent front) := by
        rw [Path.descend_concat]
        exact Path.parent?_join (isPlaced.isPlainlyWritten_descend areNamesAbove)
          (areNames last (by simp))
      rw [makeDirectories, isAbove]
      split
      next => exact .refl system
      next =>
        split
        next makes => exact isPlaced.newAlong_makeDirectory areNames goesAlong makes
        next =>
          have newAbove := inductionHypothesis areNamesAbove
            (goesAlong.ofFront (List.prefix_append ..))
          dsimp only
          split
          next above made =>
            rw [made] at newAbove
            have grows := (growsAsTree_of_makeDirectories made).grows
            exact newAbove.trans
              ((isPlaced.grows grows).newAlong_makeLastDirectory areNames goesAlong)
          next made =>
            rw [made] at newAbove
            exact newAbove
        next => split <;> exact .refl system

end IsPlaced

end FileSystem
end ScriptHost
