import ScriptHost.Proofs.Registry
import Mathlib.Data.List.Induction
import Mathlib.Data.List.Nodup

/-!
# Lifetimes of registrations

A program holds the handles that a registry gives it and consumes each of them at most once:
it takes the callable out, or lets the handle go out of scope. A registration is live until its
handle is consumed or all registrations are released. As long as the registry does not run out
of keys, it holds at every moment just the registrations that are live, under keys that it never
gives twice. So whatever is done later in the name of an ended registration finds nothing and
changes nothing, such as the release of a key when the handle of a taken callable goes out of
scope.
-/

namespace ScriptHost
namespace Registry

/-! ## Programs -/

/-- What a program does with a registry. Handles are numbered in order of registration; one that
is consumed is gone, but its key may still be asked for. The function of an invocation may do
anything itself with the callable that it is given. -/
inductive Act (α : Type)
  | register (value : α)
  | get (handle : Nat)
  | take (handle : Nat)
  | invoke (handle : Nat) (body : α → List (Act α))
  | drop (handle : Nat)
  | contains (handle : Nat)
  | size
  | releaseAll

/-- What a program sees of a registry. -/
inductive Fact (α : Type)
  | registered (key : HandleKey) (value : α)
  | got (key : HandleKey) (value? : Option α)
  | taken (key : HandleKey) (value? : Option α)
  | dropped (key : HandleKey)
  | found (key : HandleKey) (isLive : Bool)
  | counted (number : Nat)
  | releasedAll (number : Nat)
  deriving DecidableEq

/-- Something that a program sees, with the registry before and after it. -/
structure Moment (α : Type) where
  before : Registry α
  fact : Fact α
  after : Registry α

/-- A registry, the handles that it gave, each with whether it is still held, and all that the
program has seen. -/
structure Stage (α : Type) where
  registry : Registry α
  handles : List (HandleKey × Bool)
  log : List (Moment α)

variable {α : Type}

namespace Stage

/-- The program has seen nothing of a new registry. -/
def empty : Stage α :=
  ⟨.empty, [], []⟩

/-- The program sees something that may leave another registry. -/
def note
    (stage : Stage α)
    (fact : Fact α)
    (registry : Registry α) : Stage α :=
  { stage with registry := registry, log := stage.log ++ [⟨stage.registry, fact, registry⟩] }

/-- The key of a handle that is still held. -/
def held?
    (stage : Stage α)
    (handle : Nat) : Option HandleKey :=
  match stage.handles[handle]? with
  | some (key, true) => some key
  | _ => none

/-- Register a callable and hold the handle. -/
def park
    (stage : Stage α)
    (value : α) : Stage α :=
  let (registry, key) := stage.registry.register value
  { stage.note (.registered key value) registry with handles := stage.handles ++ [(key, true)] }

/-- A handle goes out of scope, which releases its key. -/
def drop
    (stage : Stage α)
    (handle : Nat)
    (key : HandleKey) : Stage α :=
  { stage.note (.dropped key) (stage.registry.release key) with
    handles := stage.handles.set handle (key, false) }

/-- Take a callable out. Its handle goes out of scope then. -/
def takeOut
    (stage : Stage α)
    (handle : Nat)
    (key : HandleKey) : Option α × Stage α :=
  let (value?, registry) := stage.registry.take key
  (value?, (stage.note (.taken key value?) registry).drop handle key)

end Stage

mutual

/-- Do something with a registry. What is to be done with a handle that is gone is not done. -/
def Act.perform : Act α → Stage α → Stage α
  | .register value, stage => stage.park value
  | .get handle, stage =>
      match stage.held? handle with
      | none => stage
      | some key => stage.note (.got key (stage.registry.get? key)) stage.registry
  | .take handle, stage =>
      match stage.held? handle with
      | none => stage
      | some key => (stage.takeOut handle key).2
  | .invoke handle body, stage =>
      match stage.held? handle with
      | none => stage
      | some key =>
          match stage.takeOut handle key with
          | (none, stage) => stage
          | (some value, stage) => performAll (body value) stage
  | .drop handle, stage =>
      match stage.held? handle with
      | none => stage
      | some key => stage.drop handle key
  | .contains handle, stage =>
      match stage.handles[handle]? with
      | none => stage
      | some (key, _) => stage.note (.found key (stage.registry.contains key)) stage.registry
  | .size, stage => stage.note (.counted stage.registry.size) stage.registry
  | .releaseAll, stage =>
      let (number, registry) := stage.registry.releaseAll
      stage.note (.releasedAll number) registry

/-- Do several things one after the other. -/
def performAll : List (Act α) → Stage α → Stage α
  | [], stage => stage
  | act :: acts, stage => performAll acts (act.perform stage)

end

/-! ## What is live -/

namespace Fact

/-- The registration that is made. -/
def registration? : Fact α → Option (HandleKey × α)
  | registered key value => some (key, value)
  | _ => none

/-- The registration under a key ends: its handle is consumed, or everything is released. -/
def ends (key : HandleKey) : Fact α → Bool
  | taken other _ | dropped other => key == other
  | releasedAll _ => true
  | registered _ _ | got _ _ | found _ _ | counted _ => false

/-- The key under which a callable is handed out for good. -/
def handedOut? : Fact α → Option HandleKey
  | taken key (some _) => some key
  | _ => none

/-- A value is handed out when it is found and taken. -/
theorem handedOut?_eq_some_iff
    {fact : Fact α}
    {key : HandleKey} :
    fact.handedOut? = some key ↔ ∃ value, fact = .taken key (some value) := by
  constructor
  · intro isHandedOut
    unfold handedOut? at isHandedOut
    split at isHandedOut
    next value =>
      cases isHandedOut
      exact ⟨value, rfl⟩
    next => cases isHandedOut
  · rintro ⟨value, rfl⟩
    rfl

/-- The program only asks. -/
def asks : Fact α → Bool
  | got _ _ | found _ _ | counted _ => true
  | registered _ _ | taken _ _ | dropped _ | releasedAll _ => false

/-- What is answered is right if these registrations are live. -/
def IsRight (live : List (HandleKey × α)) : Fact α → Prop
  | registered _ _ | dropped _ => True
  | got key value? | taken key value? => ∀ value, value? = some value ↔ (key, value) ∈ live
  | found key isLive => isLive = true ↔ ∃ value, (key, value) ∈ live
  | counted number | releasedAll number => number = live.length

end Fact

/-- The keys that were given, in order. -/
def keysGiven (log : List (Moment α)) : List HandleKey :=
  log.filterMap fun moment => moment.fact.registration?.map Prod.fst

/-- The registration under a key ends in something that is seen. -/
def isEnded
    (key : HandleKey)
    (log : List (Moment α)) : Bool :=
  log.any fun moment => moment.fact.ends key

/-- The registrations that nothing later has ended, in order. -/
def live : List (Moment α) → List (HandleKey × α)
  | [] => []
  | moment :: later =>
      (moment.fact.registration?.filter fun entry => !isEnded entry.1 later).toList ++ live later

theorem keysGiven_append (first second : List (Moment α)) :
    keysGiven (first ++ second) = keysGiven first ++ keysGiven second :=
  List.filterMap_append

theorem keysGiven_singleton (moment : Moment α) :
    keysGiven [moment] = (moment.fact.registration?.map Prod.fst).toList := by
  rw [keysGiven, List.filterMap_cons]
  cases moment.fact.registration? <;> rfl

/-- Something more that is seen ends some registrations, and may make one. -/
theorem live_concat
    (log : List (Moment α))
    (moment : Moment α) :
    live (log ++ [moment]) =
      (live log).filter (fun entry => !moment.fact.ends entry.1) ++
        moment.fact.registration?.toList := by
  induction log with
  | nil =>
      rw [List.nil_append, live, live, live, List.append_nil]
      cases moment.fact.registration? <;> rfl
  | cons first log inductionHypothesis =>
      rw [List.cons_append, live, live, inductionHypothesis, List.filter_append,
        List.append_assoc]
      congr 1
      cases first.fact.registration? with
      | none => rfl
      | some entry =>
          have isSplit : isEnded entry.1 (log ++ [moment]) =
              (isEnded entry.1 log || moment.fact.ends entry.1) := by
            rw [isEnded, List.any_append, List.any_cons, List.any_nil, Bool.or_false]
            rfl
          rw [Option.filter_some, Option.filter_some, isSplit]
          cases isEnded entry.1 log <;> cases ends : moment.fact.ends entry.1 <;> simp [ends]

/-- The keys that are live were given. -/
theorem keys_live_sublist (log : List (Moment α)) :
    ((live log).map Prod.fst).Sublist (keysGiven log) := by
  induction log with
  | nil => exact .refl _
  | cons moment log inductionHypothesis =>
      rw [live, List.map_append, ← List.singleton_append, keysGiven_append,
        keysGiven_singleton]
      refine .append ?_ inductionHypothesis
      cases moment.fact.registration? with
      | none => exact .refl _
      | some entry =>
          rw [Option.filter]
          split
          · exact .refl _
          · exact List.nil_sublist _

/-- What is live was registered. -/
theorem registered_of_mem_live
    {log : List (Moment α)}
    {key : HandleKey}
    {value : α}
    (isLive : (key, value) ∈ live log) :
    ∃ moment ∈ log, moment.fact = .registered key value := by
  induction log with
  | nil => cases isLive
  | cons moment log inductionHypothesis =>
      rw [live, List.mem_append, Option.mem_toList, Option.filter_eq_some_iff] at isLive
      rcases isLive with ⟨isFirst, -⟩ | isLater
      · refine ⟨moment, List.mem_cons_self, ?_⟩
        cases isFact : moment.fact with
        | registered other parked =>
            rw [isFact] at isFirst
            cases isFirst
            rfl
        | _ =>
            rw [isFact] at isFirst
            cases isFirst
      · obtain ⟨other, member, isFact⟩ := inductionHypothesis isLater
        exact ⟨other, List.mem_cons_of_mem _ member, isFact⟩

/-- A registration that has ended is live no more, unless its key is given again. -/
theorem not_mem_live_of_ends
    {past rest : List (Moment α)}
    {moment : Moment α}
    {key : HandleKey}
    (distinct : (keysGiven (past ++ moment :: rest)).Nodup)
    (wasGiven : key ∈ keysGiven past)
    (ends : moment.fact.ends key = true)
    (value : α) :
    (key, value) ∉ live (past ++ moment :: rest) := by
  induction rest using List.reverseRecOn with
  | nil =>
      rw [live_concat, List.mem_append, List.mem_filter, Option.mem_toList]
      rintro (⟨-, isKept⟩ | isNew)
      · rw [ends] at isKept
        cases isKept
      · rw [keysGiven_append, List.nodup_append', keysGiven_singleton] at distinct
        exact distinct.2.2 wasGiven (by rw [isNew]; exact List.mem_singleton_self _)
  | append_singleton rest later inductionHypothesis =>
      rw [← List.cons_append, ← List.append_assoc] at distinct ⊢
      rw [keysGiven_append, List.nodup_append', keysGiven_singleton] at distinct
      rw [live_concat, List.mem_append, List.mem_filter, Option.mem_toList]
      rintro (⟨wasLive, -⟩ | isNew)
      · exact inductionHypothesis distinct.1 wasLive
      · refine distinct.2.2 ?_ (by rw [isNew]; exact List.mem_singleton_self _)
        rw [keysGiven_append]
        exact List.mem_append_left _ wasGiven

/-! ## What registries hold -/

/-- A registry holds these registrations: it shows all of them, and nothing else. -/
structure Holds
    (registry : Registry α)
    (registrations : List (HandleKey × α)) : Prop where
  get?_iff : ∀ key value, registry.get? key = some value ↔ (key, value) ∈ registrations
  contains_iff : ∀ key, registry.contains key = true ↔ ∃ value, (key, value) ∈ registrations
  size_eq : registry.size = registrations.length

/-- One thing that a program may see. -/
inductive Sees : Registry α → Fact α → Registry α → Prop
  | registers
      (registry : Registry α)
      (value : α) :
      Sees registry (.registered (registry.register value).2 value) (registry.register value).1
  | gets
      (registry : Registry α)
      (key : HandleKey) :
      Sees registry (.got key (registry.get? key)) registry
  | takes
      (registry : Registry α)
      (key : HandleKey) :
      Sees registry (.taken key (registry.get? key)) (registry.release key)
  | drops
      (registry : Registry α)
      (key : HandleKey) :
      Sees registry (.dropped key) (registry.release key)
  | finds
      (registry : Registry α)
      (key : HandleKey) :
      Sees registry (.found key (registry.contains key)) registry
  | counts (registry : Registry α) : Sees registry (.counted registry.size) registry
  | releasesAll (registry : Registry α) :
      Sees registry (.releasedAll registry.size) registry.releaseAll.2

/-- A log tells all that was seen from a new registry up to this one. -/
inductive Tells : List (Moment α) → Registry α → Prop
  | begins : Tells [] .empty
  | goesOn
      {log : List (Moment α)}
      {before after : Registry α}
      {fact : Fact α}
      (tells : Tells log before)
      (sees : Sees before fact after) :
      Tells (log ++ [⟨before, fact, after⟩]) after

namespace Tells

variable {stage : Stage α}

/-- A log tells of handles that are dropped. -/
theorem drop
    (tells : Tells stage.log stage.registry)
    (handle : Nat)
    (key : HandleKey) :
    Tells (stage.drop handle key).log (stage.drop handle key).registry :=
  tells.goesOn (.drops _ key)

/-- A log tells of values that are taken out. -/
theorem takeOut
    (tells : Tells stage.log stage.registry)
    (handle : Nat)
    (key : HandleKey) :
    Tells (stage.takeOut handle key).2.log (stage.takeOut handle key).2.registry :=
  (tells.goesOn (.takes _ key)).goesOn (.drops _ key)

mutual

/-- A log tells of every act. -/
theorem perform (act : Act α) (stage : Stage α) (tells : Tells stage.log stage.registry) :
    Tells (act.perform stage).log (act.perform stage).registry := by
  cases act with
  | register value => exact tells.goesOn (.registers _ value)
  | get handle =>
      rw [Act.perform]
      cases stage.held? handle with
      | none => exact tells
      | some key => exact tells.goesOn (.gets _ key)
  | take handle =>
      rw [Act.perform]
      cases stage.held? handle with
      | none => exact tells
      | some key => exact tells.takeOut handle key
  | invoke handle body =>
      rw [Act.perform]
      cases stage.held? handle with
      | none => exact tells
      | some key =>
          have tellsNow := tells.takeOut handle key
          simp only
          generalize stage.takeOut handle key = taken at tellsNow ⊢
          obtain ⟨value?, stage⟩ := taken
          cases value? with
          | none => exact tellsNow
          | some value => exact performAll (body value) stage tellsNow
  | drop handle =>
      rw [Act.perform]
      cases stage.held? handle with
      | none => exact tells
      | some key => exact tells.drop handle key
  | contains handle =>
      rw [Act.perform]
      cases stage.handles[handle]? with
      | none => exact tells
      | some entry => exact tells.goesOn (.finds _ entry.1)
  | size => exact tells.goesOn (.counts _)
  | releaseAll => exact tells.goesOn (.releasesAll _)

/-- A log tells of all acts. -/
theorem performAll (acts : List (Act α)) (stage : Stage α)
    (tells : Tells stage.log stage.registry) :
    Tells (Registry.performAll acts stage).log (Registry.performAll acts stage).registry := by
  cases acts with
  | nil => exact tells
  | cons act acts => exact performAll acts (act.perform stage) (perform act stage tells)

end

/-- A log tells of each of its moments what was before it, and what came of it. -/
theorem split
    {past rest : List (Moment α)}
    {moment : Moment α}
    {registry : Registry α}
    (tells : Tells (past ++ moment :: rest) registry) :
    Tells past moment.before ∧ Sees moment.before moment.fact moment.after ∧
      Tells (past ++ [moment]) moment.after := by
  induction rest using List.reverseRecOn generalizing registry with
  | nil =>
      generalize isLog : past ++ [moment] = log at tells
      cases tells with
      | begins => exact nomatch (List.append_eq_nil_iff.mp isLog).2
      | goesOn tells sees =>
          obtain ⟨rfl, isMoment⟩ := List.append_inj' isLog rfl
          cases isMoment
          exact ⟨tells, sees, tells.goesOn sees⟩
  | append_singleton rest last inductionHypothesis =>
      rw [← List.cons_append, ← List.append_assoc] at tells
      generalize isLog : past ++ moment :: rest ++ [last] = log at tells
      cases tells with
      | begins => exact nomatch (List.append_eq_nil_iff.mp isLog).2
      | goesOn tells sees =>
          obtain ⟨rfl, -⟩ := List.append_inj' isLog rfl
          exact inductionHypothesis tells

end Tells

/-! ## Registries that have keys left -/

/-- A registry that has given some keys, counting up, and holds what is live. -/
structure Tidy
    (log : List (Moment α))
    (registry : Registry α) : Prop where
  nextKey_eq : registry.nextKey = UInt64.ofNat ((keysGiven log).length + 1)
  key_le : ∀ key ∈ keysGiven log, key.raw.toNat ≤ (keysGiven log).length
  distinct : (keysGiven log).Nodup
  entries_eq : registry.entries = live log

theorem tidy_empty : Tidy [] (empty : Registry α) where
  nextKey_eq := rfl
  key_le _ member := nomatch member
  distinct := List.nodup_nil
  entries_eq := rfl

namespace Tidy

variable {log : List (Moment α)} {registry : Registry α}

/-- No key is in a registry twice. -/
theorem nodup_keys (tidy : Tidy log registry) : (registry.entries.map Prod.fst).Nodup := by
  rw [tidy.entries_eq]
  exact tidy.distinct.sublist (keys_live_sublist log)

/-- A registry holds what its log says is live. -/
theorem holds (tidy : Tidy log registry) : registry.Holds (live log) where
  get?_iff key value := by
    rw [← tidy.entries_eq, get?, List.lookup_eq_some_iff]
    constructor
    · rintro ⟨before, after, isSplit, -⟩
      rw [isSplit]
      exact List.mem_append_right _ List.mem_cons_self
    · intro member
      obtain ⟨before, after, isSplit⟩ := List.append_of_mem member
      refine ⟨before, after, isSplit, ?_⟩
      intro entry isBefore
      have distinct := tidy.nodup_keys
      rw [isSplit, List.map_append, List.nodup_append'] at distinct
      refine bne_iff_ne.mpr fun same => distinct.2.2 (List.mem_map_of_mem isBefore) ?_
      rw [← same]
      exact List.mem_cons_self
  contains_iff key := by
    rw [Registry.contains_iff, tidy.entries_eq, List.mem_map]
    constructor
    · rintro ⟨⟨other, value⟩, member, rfl⟩
      exact ⟨value, member⟩
    · rintro ⟨value, member⟩
      exact ⟨_, member, rfl⟩
  size_eq := congrArg List.length tidy.entries_eq

/-- What registers nothing ends just the registrations that it says it ends. -/
theorem goOn
    (tidy : Tidy log registry)
    {fact : Fact α}
    {after : Registry α}
    (registersNone : fact.registration? = none)
    (sameNext : after.nextKey = registry.nextKey)
    (isKept : after.entries = registry.entries.filter fun entry => !fact.ends entry.1) :
    Tidy (log ++ [⟨registry, fact, after⟩]) after := by
  have sameKeys : keysGiven (log ++ [⟨registry, fact, after⟩]) = keysGiven log := by
    rw [keysGiven_append, keysGiven_singleton, registersNone]
    exact List.append_nil _
  refine ⟨?_, sameKeys.symm ▸ tidy.key_le, sameKeys.symm ▸ tidy.distinct, ?_⟩
  · rw [sameNext, sameKeys]
    exact tidy.nextKey_eq
  · rw [isKept, tidy.entries_eq, live_concat, registersNone]
    exact (List.append_nil _).symm

/-- The next key is new, and what is registered under it ends nothing. -/
theorem register
    (tidy : Tidy log registry)
    (value : α)
    (remain : (keysGiven log).length + 1 < UInt64.size) :
    Tidy (log ++ [⟨registry, .registered (registry.register value).2 value,
      (registry.register value).1⟩]) (registry.register value).1 := by
  have isKey : (registry.register value).2 = ⟨registry.nextKey⟩ := rfl
  have isNumber : registry.nextKey.toNat = (keysGiven log).length + 1 := by
    rw [tidy.nextKey_eq]
    exact UInt64.toNat_ofNat_of_lt' remain
  have isNew : ⟨registry.nextKey⟩ ∉ keysGiven log := by
    intro wasGiven
    have isSmall := tidy.key_le _ wasGiven
    rw [isNumber] at isSmall
    exact Nat.lt_irrefl _ isSmall
  have notLive : registry.contains ⟨registry.nextKey⟩ = false := by
    rw [Bool.eq_false_iff]
    intro isLive
    obtain ⟨other, member⟩ := (tidy.holds.contains_iff _).mp isLive
    exact isNew ((keys_live_sublist log).subset (List.mem_map_of_mem member))
  have oneMore : keysGiven (log ++ [⟨registry, .registered (registry.register value).2 value,
      (registry.register value).1⟩]) = keysGiven log ++ [⟨registry.nextKey⟩] := by
    rw [keysGiven_append, keysGiven_singleton]
    rfl
  refine ⟨?_, ?_, ?_, ?_⟩
  · rw [oneMore, List.length_append]
    change registry.nextKey + 1 = UInt64.ofNat ((keysGiven log).length + 1 + 1)
    rw [tidy.nextKey_eq, UInt64.ofNat_add ((keysGiven log).length + 1)]
    rfl
  · rw [oneMore]
    intro key member
    rw [List.length_append, List.length_singleton]
    rcases List.mem_append.mp member with wasGiven | isLast
    · exact Nat.le_succ_of_le (tidy.key_le key wasGiven)
    · rw [List.mem_singleton.mp isLast]
      exact Nat.le_of_eq isNumber
  · rw [oneMore, ← List.concat_eq_append]
    exact tidy.distinct.concat isNew
  · rw [live_concat]
    change (registry.release ⟨registry.nextKey⟩).entries ++ [(⟨registry.nextKey⟩, value)] = _
    rw [release_of_not_contains notLive, tidy.entries_eq]
    exact congrArg (· ++ _) (List.filter_eq_self.mpr fun _ _ => rfl).symm

end Tidy

/-- As long as there are keys left, a registry is tidy. -/
theorem Tells.tidy
    {log : List (Moment α)}
    {registry : Registry α}
    (tells : Tells log registry)
    (fewer : (keysGiven log).length < UInt64.size) :
    Tidy log registry := by
  induction tells with
  | begins => exact tidy_empty
  | @goesOn log before after fact tells sees inductionHypothesis =>
      rw [keysGiven_append, List.length_append] at fewer
      have tidy := inductionHypothesis (Nat.lt_of_le_of_lt (Nat.le_add_right ..) fewer)
      cases sees with
      | registers value => exact tidy.register value fewer
      | gets | finds | counts =>
          exact tidy.goOn rfl rfl (List.filter_eq_self.mpr fun _ _ => rfl).symm
      | takes | drops => exact tidy.goOn rfl rfl rfl
      | releasesAll =>
          exact tidy.goOn rfl rfl (List.filter_eq_nil_iff.mpr (by simp [Fact.ends])).symm

/-! ## Exactly once -/

/-- What is seen in the name of a registration that has ended: it is not found, and nothing
changes. -/
structure Moment.FindsNothing
    (key : HandleKey)
    (moment : Moment α) : Prop where
  contains_eq : moment.after.contains key = false
  got_eq : ∀ value?, moment.fact = .got key value? → value? = none
  taken_eq : ∀ value?, moment.fact = .taken key value? →
    value? = none ∧ moment.after = moment.before
  dropped_eq : moment.fact = .dropped key → moment.after = moment.before

/-- Every registration is owned by one handle and ends once. -/
structure OwnsOnce (log : List (Moment α)) : Prop where
  nodup_keysGiven : (keysGiven log).Nodup
  holds : ∀ past moment rest, log = past ++ moment :: rest →
    moment.before.Holds (live past) ∧ moment.after.Holds (live (past ++ [moment]))
  isRight : ∀ past moment rest, log = past ++ moment :: rest → moment.fact.IsRight (live past)
  after_eq_of_asks : ∀ moment ∈ log, moment.fact.asks = true → moment.after = moment.before
  nodup_handedOut : (log.filterMap fun moment => moment.fact.handedOut?).Nodup
  registered_of_taken : ∀ moment ∈ log, ∀ key value,
    moment.fact = .taken key (some value) → ∃ first ∈ log, first.fact = .registered key value
  findsNothing : ∀ past moment rest key, log = past ++ moment :: rest → key ∈ keysGiven past →
    moment.fact.ends key = true →
    moment.after.contains key = false ∧ ∀ later ∈ rest, later.FindsNothing key

/-- Whatever only asks leaves the registry as it is. -/
theorem Sees.eq_of_asks
    {before after : Registry α}
    {fact : Fact α}
    (sees : Sees before fact after)
    (asks : fact.asks = true) :
    after = before := by
  cases sees with
  | gets | finds | counts => rfl
  | registers | takes | drops | releasesAll => cases asks

namespace Tells

variable {log past rest : List (Moment α)} {registry : Registry α} {moment : Moment α}
  {key : HandleKey}

/-- Every moment of a log finds its registry tidy and leaves it tidy. -/
theorem tidy_split
    (tells : Tells (past ++ moment :: rest) registry)
    (fewer : (keysGiven (past ++ moment :: rest)).length < UInt64.size) :
    Tidy past moment.before ∧ Sees moment.before moment.fact moment.after ∧
      Tidy (past ++ [moment]) moment.after := by
  obtain ⟨tellsBefore, sees, tellsAfter⟩ := tells.split
  rw [← List.singleton_append, ← List.append_assoc, keysGiven_append, List.length_append] at fewer
  have fewerAfter := Nat.lt_of_le_of_lt (Nat.le_add_right ..) fewer
  refine ⟨tellsBefore.tidy ?_, sees, tellsAfter.tidy fewerAfter⟩
  rw [keysGiven_append, List.length_append] at fewerAfter
  exact Nat.lt_of_le_of_lt (Nat.le_add_right ..) fewerAfter

/-- Every fact of a log is right about what was live. -/
theorem isRight
    (tells : Tells (past ++ moment :: rest) registry)
    (fewer : (keysGiven (past ++ moment :: rest)).length < UInt64.size) :
    moment.fact.IsRight (live past) := by
  obtain ⟨tidy, sees, -⟩ := tells.tidy_split fewer
  obtain ⟨before, fact, after⟩ := moment
  change Sees before fact after at sees
  cases sees with
  | registers | drops => trivial
  | gets key | takes key => exact tidy.holds.get?_iff key
  | finds key => exact tidy.holds.contains_iff key
  | counts | releasesAll => exact tidy.holds.size_eq

/-- A callable that is handed out is live until then. -/
theorem mem_live_of_taken
    {value : α}
    (tells : Tells (past ++ moment :: rest) registry)
    (fewer : (keysGiven (past ++ moment :: rest)).length < UInt64.size)
    (isTaken : moment.fact = .taken key (some value)) :
    (key, value) ∈ live past := by
  have isRight := tells.isRight fewer
  rw [isTaken] at isRight
  exact (isRight value).mp rfl

/-- No callable is handed out twice. -/
theorem nodup_handedOut
    (tells : Tells log registry)
    (fewer : (keysGiven log).length < UInt64.size) :
    (log.filterMap fun moment => moment.fact.handedOut?).Nodup := by
  induction log using List.reverseRecOn generalizing registry with
  | nil => exact List.nodup_nil
  | append_singleton log last inductionHypothesis =>
      have distinct := (tells.tidy fewer).distinct
      have fewerBefore := fewer
      rw [keysGiven_append, List.length_append] at fewerBefore
      have tellsBefore := tells.split.1
      have nodup := inductionHypothesis tellsBefore
        (Nat.lt_of_le_of_lt (Nat.le_add_right ..) fewerBefore)
      rw [List.filterMap_append, List.nodup_append']
      refine ⟨nodup, ?_, ?_⟩
      · rw [List.filterMap_cons]
        split <;> simp
      · intro key wasHandedOut isHandedOut
        -- The callable would have been live after it was handed out for the first time.
        obtain ⟨first, member, isFirst⟩ := List.mem_filterMap.mp wasHandedOut
        obtain ⟨same, isMember, isLast⟩ := List.mem_filterMap.mp isHandedOut
        obtain rfl := List.mem_singleton.mp isMember
        obtain ⟨value, isTaken⟩ := Fact.handedOut?_eq_some_iff.mp isLast
        obtain ⟨other, wasTaken⟩ := Fact.handedOut?_eq_some_iff.mp isFirst
        have stillLive := tells.mem_live_of_taken fewer isTaken
        obtain ⟨past, rest, rfl⟩ := List.append_of_mem member
        have wasLive := tellsBefore.mem_live_of_taken
          (Nat.lt_of_le_of_lt (Nat.le_add_right ..) fewerBefore) wasTaken
        have wasGiven := (keys_live_sublist past).subset (List.mem_map_of_mem wasLive)
        rw [keysGiven_append, List.nodup_append'] at distinct
        exact not_mem_live_of_ends distinct.1 wasGiven
          (by rw [wasTaken]; exact beq_self_eq_true key) value stillLive

/-- Where nothing is registered, nothing is found, and nothing changes. -/
theorem findsNothing
    (tells : Tells (past ++ moment :: rest) registry)
    (fewer : (keysGiven (past ++ moment :: rest)).length < UInt64.size)
    (notBefore : ∀ value, (key, value) ∉ live past)
    (notAfter : ∀ value, (key, value) ∉ live (past ++ [moment])) :
    moment.FindsNothing key := by
  obtain ⟨tidy, sees, tidyAfter⟩ := tells.tidy_split fewer
  have isRight := tells.isRight fewer
  have notLive : moment.before.contains key = false := by
    rw [Bool.eq_false_iff, ne_eq, tidy.holds.contains_iff]
    rintro ⟨value, isLive⟩
    exact notBefore value isLive
  have eq_none : ∀ {value? : Option α},
      (∀ value, value? = some value ↔ (key, value) ∈ live past) → value? = none := by
    intro value? isRight
    exact Option.eq_none_iff_forall_ne_some.mpr fun value same =>
      notBefore value ((isRight value).mp same)
  refine ⟨?_, ?_, ?_, ?_⟩
  · rw [Bool.eq_false_iff, ne_eq, tidyAfter.holds.contains_iff]
    rintro ⟨value, isLive⟩
    exact notAfter value isLive
  · intro value? isFact
    rw [isFact] at isRight
    exact eq_none isRight
  · intro value? isFact
    rw [isFact] at isRight sees
    refine ⟨eq_none isRight, ?_⟩
    generalize moment.after = after at sees
    cases sees with
    | takes => exact release_of_not_contains notLive
  · intro isFact
    rw [isFact] at sees
    generalize moment.after = after at sees
    cases sees with
    | drops => exact release_of_not_contains notLive

end Tells

/-- As long as a program registers less often than there are keys, every registration has a
key of its own. At every moment the registry holds just what is registered and has not ended,
and answers accordingly. Every callable is handed out at most once, to whoever holds its handle.
Once a registration has ended, nothing is found under its key, and nothing that is done in its
name changes anything. -/
theorem performAll_ownsOnce
    (acts : List (Act α))
    (fewer : (keysGiven (performAll acts .empty).log).length < UInt64.size) :
    OwnsOnce (performAll acts .empty).log := by
  have tells : Tells (performAll acts .empty).log (performAll acts .empty).registry :=
    Tells.performAll acts .empty .begins
  generalize (performAll acts .empty).log = log at fewer tells
  have distinct := (tells.tidy fewer).distinct
  refine ⟨distinct, ?_, ?_, ?_, tells.nodup_handedOut fewer, ?_, ?_⟩
  · rintro past moment rest rfl
    obtain ⟨tidy, -, tidyAfter⟩ := tells.tidy_split fewer
    exact ⟨tidy.holds, tidyAfter.holds⟩
  · rintro past moment rest rfl
    exact tells.isRight fewer
  · intro moment member asks
    obtain ⟨past, rest, rfl⟩ := List.append_of_mem member
    exact tells.split.2.1.eq_of_asks asks
  · intro moment member key value isTaken
    obtain ⟨past, rest, rfl⟩ := List.append_of_mem member
    obtain ⟨first, isEarlier, isFact⟩ :=
      registered_of_mem_live (tells.mem_live_of_taken fewer isTaken)
    exact ⟨first, List.mem_append_left _ isEarlier, isFact⟩
  · rintro past moment rest key rfl wasGiven ends
    have isOver : ∀ {between after : List (Moment α)}, rest = between ++ after → ∀ value,
        (key, value) ∉ live (past ++ moment :: between) := by
      rintro between after rfl
      rw [← List.cons_append, ← List.append_assoc, keysGiven_append, List.nodup_append'] at distinct
      exact not_mem_live_of_ends distinct.1 wasGiven ends
    refine ⟨?_, ?_⟩
    · obtain ⟨-, -, tidyAfter⟩ := tells.tidy_split fewer
      rw [Bool.eq_false_iff, ne_eq, tidyAfter.holds.contains_iff]
      rintro ⟨value, isLive⟩
      exact isOver (List.nil_append rest).symm value isLive
    · intro later member
      obtain ⟨between, after, isRest⟩ := List.append_of_mem member
      have notBefore := isOver isRest
      have isSplit : rest = between ++ [later] ++ after := by
        rw [isRest, List.append_assoc]
        rfl
      have notAfter := isOver isSplit
      rw [isRest, ← List.cons_append, ← List.append_assoc] at tells fewer
      rw [← List.cons_append, ← List.append_assoc] at notAfter
      exact tells.findsNothing fewer notBefore notAfter

/-- A program whose callable, once it is invoked, registers another one, releases everything
and asks for what is left. -/
def shutdownActs : List (Act Nat) :=
  [.register 10, .register 20, .get 1,
    .invoke 0 fun value => [.register (value + 1), .contains 0, .releaseAll, .get 1],
    .take 1, .register 30, .drop 2, .size, .take 3, .size]

/-- A program that releases everything within a callback has owned each value once. -/
theorem shutdownActs_ownsOnce :
    (keysGiven (performAll shutdownActs .empty).log).length < UInt64.size ∧
      OwnsOnce (performAll shutdownActs .empty).log := by
  have fewer : (keysGiven (performAll shutdownActs .empty).log).length < UInt64.size := by
    decide +kernel
  exact ⟨fewer, performAll_ownsOnce shutdownActs fewer⟩

example :
    (performAll shutdownActs .empty).log.map Moment.fact =
      [.registered ⟨1⟩ 10, .registered ⟨2⟩ 20, .got ⟨2⟩ (some 20),
        .taken ⟨1⟩ (some 10), .dropped ⟨1⟩, .registered ⟨3⟩ 11, .found ⟨1⟩ false,
        .releasedAll 2, .got ⟨2⟩ none, .taken ⟨2⟩ none, .dropped ⟨2⟩, .registered ⟨4⟩ 30,
        .dropped ⟨3⟩, .counted 1, .taken ⟨4⟩ (some 30), .dropped ⟨4⟩, .counted 0] := by
  decide +kernel

end Registry
end ScriptHost
