import ScriptHost.Natives
import ScriptHost.Proofs.Scheduler.Custody

/-!
# What the functions of the host do

All that a function of the host does to the host it does by deeds, by asking to end and telling
the script so, or by dealing with operations, and whatever it takes in hand meanwhile it passes on:
what it parks goes to a table or into a run, what it claims goes to a recipient, and a run hands
each of its callbacks on before it ends. So each function keeps what is lasting, whatever is in hand
when it is called, if the functions that it calls do. Many functions, those for files among them,
do not even touch the affairs or the books of the host.
-/

namespace ScriptHost

variable {α : Type} {Holds : Multiset Possession → Host → Prop} {hand : Multiset Possession}
variable {kept thrown : Host → Prop}

open Session

/-- What depends on the affairs and the books of a host only. -/
def Indifferent (kept : Host → Prop) : Prop :=
  ∀ ⦃host later⦄, later.affairs = host.affairs → later.books = host.books → kept host → kept later

/-- What lasts does not depend on what else the host has. -/
theorem Lasting.indifferent (lasting : Lasting Holds) : Indifferent (Holds hand) :=
  fun _ _ same sameBooks => lasting.deed (.aside same) sameBooks

/-- A change of the host that touches neither its affairs nor its books keeps what depends on these
only. -/
theorem keeps_aside
    {change : Host → Host}
    (indifferent : Indifferent kept)
    (same : ∀ host, (change host).affairs = host.affairs)
    (sameBooks : ∀ host, (change host).books = host.books) :
    Keeps kept (changeHost change) :=
  keeps_changeHost fun host => indifferent (same host) (sameBooks host)

/-- A request to the host that touches neither its affairs nor its books keeps what depends on these
only. -/
theorem keeps_askAside
    {request : Host → α × Host}
    (indifferent : Indifferent kept)
    (same : ∀ host, (request host).2.affairs = host.affairs)
    (sameBooks : ∀ host, (request host).2.books = host.books) :
    Keeps kept (askHost request) :=
  keeps_askHost fun host => indifferent (same host) (sameBooks host)

/-! ## Waiting -/

/-- Whoever waits until something is there finds it. -/
theorem ensures_awaitSome
    (lasting : Lasting Holds)
    (find : Host → Option α)
    (fuel : Nat) :
    Ensures (Holds hand) (awaitSome find fuel)
      (fun found host => find host = some found ∧ Holds hand host) thrown := by
  induction fuel with
  | zero => exact ensures_stuck
  | succ fuel inductionHypothesis =>
      refine ensures_theHost.bind fun host => ?_
      split
      next found isFound =>
        refine ensures_pure ?_
        rintro _ ⟨rfl, holds⟩
        exact ⟨isFound, holds⟩
      next =>
        refine Ensures.bind (((Scheduler.ensures_await lasting).ofNever fun _ _ => id).imp
          fun _ => And.right) fun waited => ?_
        split
        · exact inductionHypothesis
        · exact ensures_stuck

/-- Whoever waits for an operation finds its outcome. -/
theorem ensures_waitFor
    (lasting : Lasting Holds)
    (operation : OperationId) :
    Ensures (Holds hand) (waitFor operation)
      (fun outcome host => host.board.outcome? operation = some outcome ∧ Holds hand host)
      thrown :=
  ensures_theHost.bind fun _ => (ensures_awaitSome lasting _ _).imp fun _ => And.right

namespace Natives

/-! ## Storage, surroundings and the web -/

/-- What is done to files keeps what does not depend on them. -/
theorem keeps_withFiles
    (indifferent : Indifferent kept)
    (action : FileM α) :
    Keeps kept (withFiles action) := by
  refine (keeps_askAside indifferent (fun _ => rfl) fun _ => rfl).bind fun result => ?_
  cases result with
  | ok value => exact keeps_pure value
  | error error => exact keeps_raise _

theorem keeps_quietly
    (indifferent : Indifferent kept)
    (action : FileM Unit) :
    Keeps kept (quietly action) :=
  (keeps_withFiles indifferent action).bind fun _ => keeps_pure _

/-- A function of the host keeps something, whatever is in hand, if the functions that it calls
do. -/
def Respects
    (Holds : Multiset Possession → Host → Prop)
    (native : Native) : Prop :=
  ∀ invoke : Invoke, (∀ function arguments hand, Keeps (Holds hand) (invoke function arguments)) →
    ∀ arguments hand, Keeps (Holds hand) (native.body invoke arguments)

/-- A native that reads its arguments respects the holdings if its body keeps them whenever
callbacks do. -/
theorem respects_reading
    {required : Nat}
    {parameters : Parameters α}
    {body : Invoke → α → SessionM Value}
    (keeps : ∀ invoke : Invoke,
      (∀ function arguments hand, Keeps (Holds hand) (invoke function arguments)) →
        ∀ values hand, Keeps (Holds hand) (body invoke values)) :
    Respects Holds (.reading required parameters body) :=
  fun invoke calls _ hand => (keeps_converted _).bind fun (values, _) =>
    keeps invoke calls values hand

/-- A native that calls no callback respects the holdings if its body keeps them. -/
theorem respects_plain
    {required : Nat}
    {parameters : Parameters α}
    {body : α → SessionM Value}
    (keeps : ∀ values hand, Keeps (Holds hand) (body values)) :
    Respects Holds (.plain required parameters body) :=
  respects_reading fun _ _ => keeps

theorem respects_ofPath
    {body : String → SessionM Value}
    (keeps : ∀ path hand, Keeps (Holds hand) (body path)) :
    Respects Holds (ofPath body) :=
  respects_plain keeps

theorem respects_ofPathAndFlag
    {body : String → Bool → SessionM Value}
    (keeps : ∀ path flag hand, Keeps (Holds hand) (body path flag)) :
    Respects Holds (ofPathAndFlag body) :=
  respects_plain fun (path, _) => keeps path _

theorem respects_ofPairAndFlag
    {body : String → String → Bool → SessionM Value}
    (keeps : ∀ first second flag hand, Keeps (Holds hand) (body first second flag)) :
    Respects Holds (ofPairAndFlag body) :=
  respects_plain fun (first, second, _) => keeps first second _

theorem respects_ofPair
    {body : String → String → SessionM Value}
    (keeps : ∀ first second hand, Keeps (Holds hand) (body first second)) :
    Respects Holds (ofPair body) :=
  respects_plain fun (first, second) => keeps first second

theorem keeps_dirCurrent : Keeps kept dirCurrent := by
  refine keeps_theHost.bind fun host => ?_
  dsimp only
  split
  · exact keeps_pure _
  · exact keeps_raise _

theorem keeps_dirSetCurrent
    (indifferent : Indifferent kept)
    (path : String) :
    Keeps kept (dirSetCurrent path) := by
  refine keeps_theHost.bind fun host => ?_
  split
  · exact Keeps.bind (keeps_aside indifferent (fun _ => rfl) fun _ => rfl) fun _ => keeps_pure _
  · exact keeps_raise _

/-- The natives for files and directories touch no holdings. -/
theorem respects_storage (indifferent : ∀ hand, Indifferent (Holds hand)) :
    ∀ entry ∈ storage, Respects Holds entry.2 := by
  simp only [storage, List.forall_mem_cons]
  refine ⟨?_, ?_, ?_, ?_, ?_, ?_, ?_, ?_, ?_, ?_, ?_, ?_, ?_, ?_, ?_, ?_, ?_, nofun⟩
  · exact respects_ofPath fun _ _ => keeps_theHost.bind fun _ => keeps_pure _
  · exact respects_ofPath fun _ _ => keeps_quietly (indifferent _) _
  · exact respects_ofPairAndFlag fun _ _ _ _ =>
      (keeps_withFiles (indifferent _) _).bind fun _ => keeps_pure _
  · exact respects_ofPairAndFlag fun _ _ _ _ => keeps_quietly (indifferent _) _
  · exact respects_ofPath fun _ _ => (keeps_withFiles (indifferent _) _).bind fun _ => keeps_pure _
  · exact respects_ofPath fun _ _ => (keeps_withFiles (indifferent _) _).bind fun _ => keeps_pure _
  · exact respects_ofPairAndFlag fun _ _ _ _ => keeps_quietly (indifferent _) _
  · exact respects_ofPath fun _ _ => (keeps_withFiles (indifferent _) _).bind fun _ => keeps_pure _
  · exact respects_ofPath fun _ _ => keeps_quietly (indifferent _) _
  · exact respects_ofPathAndFlag fun _ _ _ => keeps_quietly (indifferent _) _
  · exact respects_ofPath fun _ _ => keeps_theHost.bind fun _ => keeps_pure _
  · exact respects_ofPair fun _ _ _ => keeps_quietly (indifferent _) _
  · exact respects_ofPair fun _ _ _ => keeps_quietly (indifferent _) _
  · exact respects_plain fun _ _ => keeps_dirCurrent
  · exact respects_ofPath fun _ _ => keeps_dirSetCurrent (indifferent _) _
  · exact respects_ofPathAndFlag fun _ _ _ =>
      (keeps_withFiles (indifferent _) _).bind fun _ => keeps_pure _
  · exact respects_ofPathAndFlag fun _ _ _ =>
      (keeps_withFiles (indifferent _) _).bind fun _ => keeps_pure _

theorem keeps_readLine (indifferent : Indifferent kept) : Keeps kept readLine := by
  refine keeps_theHost.bind fun host => ?_
  generalize cutLine host.input = cut
  refine Keeps.bind (keeps_aside indifferent (fun _ => rfl) fun _ => rfl) fun _ => ?_
  split
  · exact keeps_pure _
  · split
    · exact keeps_pure _
    · exact keeps_raise _

theorem keeps_print
    (indifferent : Indifferent kept)
    (values : List Value) :
    Keeps kept (print values) := by
  refine Keeps.bind (keeps_mapM (fun value => ?_) values) fun texts =>
    Keeps.bind (keeps_aside indifferent (fun _ => rfl) fun _ => rfl) fun _ => keeps_pure _
  split
  · exact keeps_pure _
  · exact keeps_raiseType _

/-- An exit keeps what is kept when the host is asked to exit. -/
theorem keeps_exit
    (asks : ∀ host code, kept host → kept (host.askExit code))
    (code? : Option Int32) :
    Keeps kept (exit code?) :=
  Keeps.bind (keeps_changeHost fun host => asks host _) fun _ => keeps_raise _

/-- The natives for the terminal and the process touch no holdings. -/
theorem respects_surroundings
    (indifferent : ∀ hand, Indifferent (Holds hand))
    (asks : ∀ hand host code, Holds hand host → Holds hand (host.askExit code)) :
    ∀ entry ∈ surroundings, Respects Holds entry.2 := by
  simp only [surroundings, List.forall_mem_cons]
  refine ⟨?_, ?_, ?_, ?_, ?_, ?_, ?_, nofun⟩
  · exact respects_plain fun _ _ => keeps_pure _
  · exact respects_plain fun _ _ => keeps_theHost.bind fun _ => keeps_pure _
  · exact respects_plain fun _ _ => keeps_theHost.bind fun _ => keeps_pure _
  · exact respects_plain fun _ _ => keeps_theHost.bind fun _ => keeps_pure _
  · exact respects_plain fun code? hand => keeps_exit (asks hand) code?
  · exact respects_plain fun _ hand => keeps_readLine (indifferent hand)
  · exact fun _ _ values hand => keeps_print (indifferent hand) values

theorem keeps_headersOf (value : Value) : Keeps kept (headersOf value) := by
  refine keeps_mapM (fun entry => ?_) _
  dsimp only
  split
  · exact keeps_pure _
  · exact keeps_raiseType _

/-- A web request keeps what does not depend on the outside. -/
theorem keeps_httpRequest
    (indifferent : Indifferent kept)
    (request : WebRequest) :
    Keeps kept (httpRequest request) := by
  unfold httpRequest
  extract_lets withHeaders
  have keepsWithHeaders (headers : List (String × String)) :
      Keeps kept (withHeaders headers) := by
    unfold withHeaders
    extract_lets withBody
    have keepsWithBody (body? : Option Http.Body) : Keeps kept (withBody body?) := by
      refine Keeps.bind (keeps_askAside indifferent (fun _ => rfl) fun _ => rfl) fun result => ?_
      cases result with
      | error failure => exact keeps_raise _
      | ok response => exact keeps_pure _
    split
    · exact keepsWithBody none
    · exact (keeps_converted _).bind fun body => keepsWithBody (some body)
  split
  · exact keepsWithHeaders []
  · exact (keeps_headersOf _).bind keepsWithHeaders

/-- The operation of work that leaves no output is begun for the script. -/
theorem keeps_holding
    {request : Host → OperationId × Host}
    (lasting : Lasting Holds)
    (natural : ResultType)
    (begins : ∀ host, ∃ time work, request host = host.begin time work ∧
      ∀ operation, (work operation).operation = operation ∧ (work operation).cell? = none) :
    Keeps (Holds hand) (do
      let operation ← askHost request
      return Value.ofHandle (← askHost fun host => host.holdOperation operation natural)) := by
  refine Ensures.bind (ensures_askHost (fun operation later => ∃ host, Holds hand host ∧
    request host = (operation, later)) fun host holds => ⟨host, holds, rfl⟩) fun operation => ?_
  refine Ensures.bind (ensures_askHost (fun _ => Holds hand) ?_) fun _ => keeps_pure _
  rintro later ⟨host, holds, requested⟩
  obtain ⟨time, work, isBegun, natured⟩ := begins host
  obtain ⟨rfl, rfl⟩ := Prod.mk.inj (isBegun.symm.trans requested)
  refine lasting (.creates time work natural (fun operation => (natured operation).1) ?_) holds
  intro operation cell leaves
  cases (natured operation).2.symm.trans leaves

/-- The natives for the web move no holdings. -/
theorem respects_web (lasting : Lasting Holds) : ∀ entry ∈ web, Respects Holds entry.2 := by
  simp only [web, List.forall_mem_cons]
  refine ⟨?_, ?_, nofun⟩
  · exact respects_plain fun _ _ => keeps_holding lasting .void fun _ =>
      ⟨_, _, rfl, fun _ => ⟨rfl, rfl⟩⟩
  · exact respects_plain fun _ _ => keeps_httpRequest lasting.indifferent _

/-! ## Tasks -/

theorem keeps_countOf
    (name : String)
    (number? : Option Binary64)
    (default : UInt64) :
    Keeps kept (countOf name number? default) := by
  unfold countOf
  split
  · exact keeps_pure _
  · split
    · split
      · exact keeps_raise _
      · exact keeps_pure _
    · exact keeps_raise _

/-- A delay leaves the hand as it was. -/
theorem keeps_taskDelay
    (lasting : Lasting Holds)
    (milliseconds : Binary64) :
    Keeps (Holds hand) (taskDelay milliseconds) := by
  unfold taskDelay
  split
  · exact keeps_raise _
  · exact ensures_crashed
  · exact keeps_holding lasting .void fun _ => ⟨_, _, rfl, fun _ => ⟨rfl, rfl⟩⟩

theorem keeps_taskStatus
    (lasting : Lasting Holds)
    (handle : ScriptHandle) :
    Keeps (Holds hand) (taskStatus handle) := by
  refine Ensures.bind ensures_theHost fun seen => ?_
  split
  next status isShown =>
    obtain ⟨held, found, isStatus⟩ := Option.bind_eq_some_iff.mp isShown
    refine Ensures.bind (ensures_changeHost (fun _ => Holds hand) ?_) fun _ => keeps_pure _
    rintro _ ⟨rfl, holds⟩
    exact lasting (.shows found isStatus) holds
  next absent =>
    refine Ensures.bind (ensures_changeHost (fun _ => Holds hand) ?_) fun _ => keeps_raise _
    rintro _ ⟨rfl, holds⟩
    exact lasting (.misses absent) holds

/-- What is in hand when an operation has been claimed, if there was one. -/
def claimHand
    (handle : ScriptHandle)
    (hand : Multiset Possession) : Option HeldOperation → Multiset Possession
  | none => hand
  | some held => .operation handle held.operation ::ₘ hand

/-- Whoever claims a handle has its operation in hand, if there was one. -/
theorem ensures_claim
    (lasting : Lasting Holds)
    (handle : ScriptHandle) :
    Ensures (Holds hand) (claim handle)
      (fun held? => Holds (claimHand handle hand held?)) never := by
  refine ensures_theHost.bind fun seen => ?_
  split
  next absent =>
    refine (ensures_changeHost (fun _ => Holds hand) ?_).bind fun _ => ensures_pure fun _ => id
    rintro _ ⟨rfl, holds⟩
    exact lasting (.misses (Host.get?_of_takeOperation_eq_none absent ▸ rfl)) holds
  next held later taken =>
    refine (ensures_changeHost (fun _ => Holds (claimHand handle hand (some held))) ?_).bind
      fun _ => ensures_pure fun _ => id
    rintro _ ⟨rfl, holds⟩
    exact lasting (.claims taken) holds

/-- Waiting uses up what it has claimed, so that the hand is as before. -/
theorem keeps_taskWait
    (lasting : Lasting Holds)
    (handle : ScriptHandle)
    (type? : Option String) :
    Keeps (Holds hand) (taskWait handle type?) := by
  refine Ensures.bind ((ensures_claim lasting handle).ofNever fun _ _ => id) fun held? => ?_
  cases held? with
  | none => exact keeps_raise _
  | some held =>
      refine Ensures.bind (ensures_waitFor lasting held.operation) fun outcome => ?_
      refine Ensures.bind (ensures_changeHost (fun _ => Holds hand) fun host holds =>
        lasting (.hands handle .waiter _ holds.1) holds.2) fun _ => ?_
      split
      · exact keeps_pure _
      · exact keeps_raise _

/-! ## Runs -/

/-- What the callback of an operation that is run has in hand. -/
def Awaiter.possessions (awaiter : Awaiter) : Multiset Possession :=
  .key awaiter.key ::ₘ {.operation awaiter.handle awaiter.operation}

/-- A callback waits for the operation that it stands for. -/
def Awaiter.Awaits
    (awaiter : Awaiter)
    (operation : OperationId) : Prop :=
  awaiter.operation = operation

section Runs

variable {invoke : Invoke}

/-- What a run comes to is thrown only after the run has ended. -/
theorem ensures_runResult (result? : Option (Except String Scheduler.Report)) :
    Ensures (Scheduler.IfSome (fun _ => kept) result?) (runResult result?)
      (fun _ => kept) kept := by
  cases result? with
  | none => exact ensures_stuck
  | some result =>
      cases result with
      | ok report => exact ensures_pure fun _ => id
      | error message => exact ensures_throw fun _ => id

/-- When the run of a batch is over, the function of the batch is released before anything is said
of the run. -/
theorem ensures_concluded
    {before after : Host → Prop}
    {running : SessionM (Option (Except String Scheduler.Report))}
    {key : HandleKey}
    (runs : Ensures before running (Scheduler.IfSome fun _ => kept) never)
    (releases : ∀ host, kept host → after (host.release key)) :
    Ensures before
      (do
        let result? ← running
        changeHost fun host => host.release key
        let _ ← runResult result?
        pure (Value.bool true))
      (fun _ => after) after := by
  refine Ensures.bind (runs.ofNever fun _ _ => id) fun result? => ?_
  refine Ensures.bind (ensures_changeHost (fun _ => Scheduler.IfSome (fun _ => after) result?) ?_)
    fun _ => (ensures_runResult result?).bind fun _ => ensures_pure fun _ => id
  cases result? with
  | none => exact fun _ _ => trivial
  | some result => exact releases

variable
  (lasting : Lasting Holds)
  (calls : ∀ function arguments hand, Keeps (Holds hand) (invoke function arguments))

include calls

/-- A callback that is called with a report leaves the hand as it was. -/
theorem ensures_reported
    (function : Function)
    (arguments : List Value) :
    Ensures (Holds hand) (reported (invoke function arguments)) (fun _ => Holds hand) never :=
  Ensures.reported (calls function arguments hand)

/-- A callback that is called and recorded leaves in hand what the record left. -/
theorem ensures_callRecorded
    {before : Host → Prop}
    {record : Host → Host}
    (recorded : ∀ host, before host → Holds hand (record host))
    (function : Function)
    (arguments : List Value) :
    Ensures before (callRecorded invoke record function arguments) (fun _ => Holds hand) never :=
  (ensures_changeHost (fun _ => Holds hand) recorded).bind fun _ =>
    ensures_reported calls function arguments

include lasting

/-- What a producer yields is in hand afterwards. -/
theorem ensures_produce (producer : Function) :
    Ensures (Holds hand) (produce invoke producer)
      (Scheduler.Yields Holds Awaiter.possessions Awaiter.Awaits hand) never := by
  refine (ensures_reported calls producer []).bind fun product => ?_
  split
  · exact ensures_pure fun _ => id
  · exact ensures_pure fun _ => id
  · exact ensures_pure fun _ => id
  · unfold takeIn
    split
    · exact ensures_pure fun _ => id
    next handle type? function isProduct =>
      refine (ensures_claim lasting _).bind fun held? => ?_
      cases held? with
      | none => exact ensures_pure fun _ => id
      | some held =>
          refine Ensures.bind (ensures_askHost
            (fun key => Holds (Awaiter.possessions ⟨key, handle, held.operation⟩ + hand))
              fun host holds => ?_) fun key => ?_
          · rw [Awaiter.possessions, Multiset.cons_add, Multiset.singleton_add]
            exact lasting.deed (.park function) rfl holds
          · exact ensures_pure fun host holds => ⟨rfl, holds⟩
  · exact ensures_pure fun _ => id

/-- A key is released before its function is called, and the function is handed what came of the
operation. -/
theorem ensures_deliver (completion : Scheduler.Completion Awaiter) :
    Ensures
      (fun host => Scheduler.Reports Awaiter.Awaits completion host ∧
        Holds (completion.callback.possessions + hand) host)
      (deliver invoke completion) (fun _ => Holds hand) never := by
  refine (ensures_theHost.weaken (fun _ => id) (fun _ _ => And.right) fun _ => id).bind fun seen =>
    ?_
  refine Ensures.bind (ensures_changeHost (fun _ host =>
    Scheduler.Reports Awaiter.Awaits completion host ∧
      Holds (.operation completion.callback.handle completion.callback.operation ::ₘ hand) host)
    fun host holds => ?_) fun _ => ?_
  · rw [Awaiter.possessions, Multiset.cons_add] at holds
    exact ⟨holds.1, lasting.deed (.release _) rfl holds.2⟩
  split
  · exact ensures_pure fun host holds => lasting.deed (.leaveOperation _ _) rfl holds.2
  next function isParked =>
    refine (ensures_callRecorded calls ?_ _ _).bind fun _ => ensures_pure fun _ => id
    rintro host ⟨⟨_, type, outcome, rfl, isThere, isResult⟩, holds⟩
    rw [isResult]
    exact lasting (.hands _ _ type isThere) holds

/-- The callbacks of operations that are run are in custody during the run. -/
theorem custody_run :
    Scheduler.Custody Holds Awaiter.possessions Awaiter.Awaits (deliver invoke)
      fun awaiter => changeHost fun host => host.release awaiter.key where
  lasting := lasting
  dispatch completion hand := ensures_deliver lasting calls completion
  discard awaiter hand := by
    refine ensures_changeHost (fun _ => Holds hand) fun host holds => ?_
    rw [Awaiter.possessions, Multiset.cons_add] at holds
    exact lasting.deed (.leaveOperation _ _) rfl (lasting.deed (.release _) rfl holds)

/-- A run of a producer uses up all that it takes in, so that the hand is as before. -/
theorem keeps_taskRun
    (producer : Function)
    (limit? : Option Binary64) :
    Keeps (Holds hand) (taskRun invoke producer limit?) := by
  refine keeps_theHost.bind fun host => (keeps_countOf _ _ _).bind fun limit => ?_
  refine Ensures.bind (((custody_run lasting calls).runPull
    (fun _ => ensures_produce lasting calls producer) limit runFuel).ofNever fun _ _ => id)
    fun result? => ?_
  exact (ensures_runResult result?).bind fun report => ensures_pure fun _ => id

/-- What a slot of a batch has in hand. -/
def BatchSlot.possessions (slot : BatchSlot) : Multiset Possession :=
  .cell slot.cell ::ₘ keyHand slot.onExit?.toList

/-- What a process left is taken, and a key is released before its function is called, and then
the function of the batch is called. -/
theorem ensures_batchExited
    (handle : ScriptHandle)
    (callback : HandleKey)
    (completion : Scheduler.Completion BatchSlot) :
    Ensures (Holds (completion.callback.possessions + hand))
      (batchExited invoke handle callback completion) (fun _ => Holds hand) (Holds hand) := by
  refine Ensures.bind (ensures_askHost (fun _ =>
    Holds (keyHand completion.callback.onExit?.toList + hand)) fun host holds => ?_)
    fun output? => ?_
  · rw [BatchSlot.possessions, Multiset.cons_add] at holds
    exact lasting.deed (.takeOutput _) rfl holds
  refine (ensures_theHost.weaken (fun _ => id) (fun _ _ => And.right) fun _ => id).bind
    fun host => ?_
  refine (ensures_changeHost (fun _ => Holds hand) fun host holds =>
    lasting.release? holds).bind fun _ => ?_
  extract_lets tellBatch
  have keepsTellBatch : Keeps (Holds hand) (tellBatch ()) := by
    refine keeps_theHost.bind fun host => ?_
    split
    · exact Keeps.bind (calls _ _ _) fun _ => keeps_pure _
    · exact keeps_pure _
  split
  · exact Keeps.bind (calls _ _ _) fun _ => keepsTellBatch
  · exact keepsTellBatch

/-- The slots of a batch are in custody during its run. -/
theorem custody_batch
    (handle : ScriptHandle)
    (callback : HandleKey) :
    Scheduler.Custody Holds BatchSlot.possessions (fun _ _ => True)
      (fun completion => reported (batchExited invoke handle callback completion))
      fun slot => changeHost fun host => host.release? slot.onExit? where
  lasting := lasting
  dispatch completion hand :=
    (ensures_batchExited lasting calls handle callback completion).reported.imp fun _ => And.right
  discard slot hand := by
    refine ensures_changeHost (fun _ => Holds hand) fun host holds => lasting.release? ?_
    rw [BatchSlot.possessions, Multiset.cons_add] at holds
    exact lasting.deed (.leaveCell slot.cell) rfl holds

end Runs

/-- The natives for operations move holdings only by the laws of the host. -/
theorem respects_tasks (lasting : Lasting Holds) : ∀ entry ∈ tasks, Respects Holds entry.2 := by
  simp only [tasks, List.forall_mem_cons]
  refine ⟨?_, ?_, ?_, ?_, nofun⟩
  · exact respects_plain fun _ _ => keeps_taskDelay lasting _
  · exact respects_plain fun _ _ => keeps_taskStatus lasting _
  · exact respects_plain fun (handle, type?) _ => keeps_taskWait lasting handle type?
  · exact respects_reading fun _ calls (producer, limit?) _ =>
      keeps_taskRun lasting calls producer limit?

/-! ## Processes and batches -/

/-- Starting a process leaves the hand as it was. -/
theorem keeps_startProcess
    (lasting : Lasting Holds)
    (request : ProcessRequest) :
    Keeps (Holds hand) (startProcess request) := by
  refine keeps_theHost.bind fun host => Keeps.bind ?_ fun _ => keeps_pure _
  refine keeps_changeHost fun host holds => lasting.pass _ (lasting.deed (.aside ?_) ?_ holds)
  · rfl
  · rfl

/-- The callback of a new batch goes to the batch, and the hand is as before. -/
theorem keeps_createBatchProcess
    (lasting : Lasting Holds)
    (callback : Value) :
    Keeps (Holds hand) (createBatchProcess callback) := by
  unfold createBatchProcess
  split
  next function =>
    refine Ensures.bind (ensures_askHost (fun key later =>
      ∃ host, Holds hand host ∧ (key, later) = host.park function)
      fun host holds => ⟨host, holds, rfl⟩) fun key => ?_
    refine Ensures.bind (ensures_askHost (fun _ => Holds hand) ?_) fun _ => keeps_pure _
    rintro _ ⟨host, holds, parked⟩
    obtain ⟨rfl, rfl⟩ := Prod.mk.inj parked
    exact lasting.deed (.createBatch function)
      (Host.view_releaseEach (fun _ _ => rfl) _ _) holds
  · exact keeps_pure _

/-- Parking leaves the tables as they are. -/
theorem batches_park?
    (host : Host)
    (function? : Option Function) :
    (host.park? function?).2.batches = host.batches := by
  cases function? <;> rfl

/-- The callback of a new process goes to its batch, and the hand is as before. -/
theorem keeps_addBatchProcess
    (lasting : Lasting Holds)
    (handle : ScriptHandle)
    (request : ProcessRequest)
    (onExit? : Option Function) :
    Keeps (Holds hand) (addBatchProcess handle request onExit?) := by
  refine Ensures.bind ensures_theHost fun seen => ?_
  split
  · exact ensures_pure fun _ => And.right
  next batch found =>
    refine Ensures.bind (ensures_askHost (fun key? host =>
      host.batches.get? handle = some batch ∧ Holds (keyHand key?.toList + hand) host) ?_)
      fun key? => ?_
    · rintro _ ⟨rfl, holds⟩
      rw [batches_park?]
      exact ⟨found, lasting.park? holds onExit?⟩
    · refine Ensures.bind (ensures_changeHost (fun _ => Holds hand)
        fun host holds => ?_) fun _ => keeps_pure _
      exact lasting.deed (.addEntry _ key? holds.1) rfl holds.2

/-- Whoever claims a batch has all of its keys in hand, if there was one. -/
theorem ensures_claimBatch
    (lasting : Lasting Holds)
    (handle : ScriptHandle) :
    Ensures (Holds hand) (claimBatch handle)
      (fun batch? => Holds (keyHand (batch?.elim [] Batch.keys) + hand)) never :=
  ensures_askHost _ fun _ holds => lasting.deed (.takeBatch handle) rfl holds

/-- A job is of an entry: it launches the process of the entry, which leaves its output in the
cell of the job, and has the key of the entry. -/
structure IsJobOf
    (entry : BatchEntry × Nat)
    (job : Scheduler.Job SessionM BatchSlot) : Prop where
  launch_eq : job.launch = askHost fun host =>
    host.beginProcess entry.1.spec (some job.callback.cell)
  type_eq : job.type = .int
  index_eq : job.callback.index = entry.2 + 1
  capture_eq : job.callback.capture = entry.1.spec.capture
  onExit?_eq : job.callback.onExit? = entry.1.onExit?

/-- Launching a job of a batch leaves its callback with the job. -/
theorem IsJobOf.launches
    {entry : BatchEntry × Nat}
    {job : Scheduler.Job SessionM BatchSlot}
    (isJob : IsJobOf entry job)
    (lasting : Lasting Holds)
    (hand : Multiset Possession) :
    Ensures (Holds (job.callback.possessions + hand)) job.launch
      (fun _ => Holds (job.callback.possessions + hand)) never := by
  rw [isJob.launch_eq]
  refine ensures_askHost _ fun host holds => lasting.deed (.begin _ _ (fun _ => rfl) ?_) rfl holds
  rintro _ _ ⟨⟩
  exact Multiset.mem_add.mpr (.inl (Multiset.mem_cons_self _ _))

/-- The job of an entry has the callback of the entry. -/
theorem ensures_batchJob
    (lasting : Lasting Holds)
    (entry : BatchEntry)
    (index : Nat) :
    Ensures (Holds (keyHand entry.onExit?.toList + hand)) (batchJob entry index)
      (fun job host => IsJobOf (entry, index) job ∧ Holds (job.callback.possessions + hand) host)
      never := by
  refine Ensures.bind (ensures_askHost
    (fun cell => Holds (.cell cell ::ₘ (keyHand entry.onExit?.toList + hand)))
    fun host holds => lasting.deed .makeCell rfl holds) fun cell =>
      ensures_pure fun host holds => ?_
  rw [← Multiset.cons_add] at holds
  exact ⟨⟨rfl, rfl, rfl, rfl, rfl⟩, holds⟩

/-- The jobs of a batch have the keys of its entries in hand, and cells of their own. -/
theorem ensures_batchJobs
    (lasting : Lasting Holds)
    (entries : List (BatchEntry × Nat)) :
    Ensures (Holds (keyHand (entries.filterMap fun entry => entry.1.onExit?) + hand))
      (entries.mapM fun (entry, index) => batchJob entry index)
      (fun jobs host => List.Forall₂ IsJobOf entries jobs ∧
        Holds (Scheduler.handOf BatchSlot.possessions jobs + hand) host) never := by
  induction entries generalizing hand with
  | nil => exact ensures_pure fun _ holds => ⟨.nil, holds⟩
  | cons entry entries inductionHypothesis =>
      have split : keyHand ((entry :: entries).filterMap fun entry => entry.1.onExit?) =
          keyHand entry.1.onExit?.toList +
            keyHand (entries.filterMap fun entry => entry.1.onExit?) := by
        rw [List.filterMap_cons, ← keyHand_append]
        cases entry.1.onExit? <;> rfl
      rw [List.mapM_cons, split, add_assoc]
      refine (ensures_batchJob lasting _ _).bind fun job => ensures_of_fact fun isJob => ?_
      rw [add_left_comm]
      refine inductionHypothesis.bind fun jobs => ensures_pure fun host holds => ?_
      rw [Scheduler.handOf_cons, add_assoc, add_left_comm]
      exact ⟨.cons isJob holds.1, holds.2⟩

/-- Each job of a batch can be launched with its callback in hand. -/
theorem launches_of_jobs
    {entries : List (BatchEntry × Nat)}
    {jobs : List (Scheduler.Job SessionM BatchSlot)}
    (areJobs : List.Forall₂ IsJobOf entries jobs)
    (lasting : Lasting Holds) :
    ∀ job ∈ jobs, ∀ hand, Ensures (Holds (job.callback.possessions + hand)) job.launch
      (fun _ => Holds (job.callback.possessions + hand)) never := by
  induction areJobs with
  | nil => exact nofun
  | cons isJob _ inductionHypothesis =>
      exact List.forall_mem_cons.mpr ⟨isJob.launches lasting, inductionHypothesis⟩

/-- The keys of a batch are those of its entries and that of its function. -/
theorem keyHand_keys (batch : Batch) :
    keyHand batch.keys =
      .key batch.callback ::ₘ
        keyHand (batch.entries.zipIdx.filterMap fun entry => entry.1.onExit?) := by
  have sameEntries : batch.entries.filterMap BatchEntry.onExit? =
      batch.entries.zipIdx.filterMap fun entry => entry.1.onExit? := by
    conv_lhs => rw [← List.zipIdx_map_fst 0 batch.entries, List.filterMap_map]
    rfl
  rw [Batch.keys, keyHand_cons, sameEntries]

section Batches

variable {invoke : Invoke}
  (lasting : Lasting Holds)
  (calls : ∀ function arguments hand, Keeps (Holds hand) (invoke function arguments))

include lasting calls

/-- A batch that is run has used up its callbacks in the end. -/
theorem keeps_runBatch
    (handle : ScriptHandle)
    (limit fuel : Nat) :
    Keeps (Holds hand) (runBatch invoke handle limit fuel) := by
  refine Ensures.bind ((ensures_claimBatch lasting handle).ofNever fun _ _ => id) fun batch? => ?_
  cases batch? with
  | none => exact ensures_pure fun _ holds => Multiset.zero_add hand ▸ holds
  | some batch =>
      change Ensures (Holds (keyHand batch.keys + hand)) _ _ _
      rw [keyHand_keys, Multiset.cons_add, ← Multiset.add_cons]
      refine Ensures.bind ((ensures_batchJobs lasting _).ofNever fun _ _ => id)
        fun jobs => ensures_of_fact fun areJobs => ?_
      have runs := (custody_batch lasting calls handle batch.callback).runFanOut
        (fun _ _ => trivial) (.key batch.callback ::ₘ hand) jobs
        (launches_of_jobs areJobs lasting) limit fuel
      exact ensures_concluded runs fun _ holds => lasting.deed (.release _) rfl holds

theorem keeps_runBatchProcess
    (handle : ScriptHandle)
    (limit? : Option Binary64) :
    Keeps (Holds hand) (runBatchProcess invoke handle limit?) :=
  keeps_theHost.bind fun _ => (keeps_countOf _ _ _).bind fun _ =>
    keeps_runBatch lasting calls handle _ _

end Batches

/-- The natives for processes move holdings only by the laws of the host. -/
theorem respects_processes (lasting : Lasting Holds) :
    ∀ entry ∈ processes, Respects Holds entry.2 := by
  simp only [processes, List.forall_mem_cons]
  refine ⟨?_, ?_, ?_, ?_, ?_, nofun⟩
  · exact respects_plain fun _ _ => keeps_startProcess lasting _
  · exact respects_plain fun request _ => keeps_holding lasting .int fun host =>
      ⟨_, fun operation => .process operation request.spec host.files.current none, rfl,
        fun _ => ⟨rfl, rfl⟩⟩
  · exact respects_plain fun _ _ => keeps_createBatchProcess lasting _
  · exact respects_plain fun (handle, request, onExit?) _ =>
      keeps_addBatchProcess lasting handle request onExit?
  · exact respects_reading fun _ calls (handle, limit?) _ =>
      keeps_runBatchProcess lasting calls handle limit?

/-! ## Connections -/

/-- The callbacks of a connection that is held go to the connection. -/
theorem keeps_holdConnection
    (lasting : Lasting Holds)
    (transport : TransportId)
    (isServer : Bool)
    (request : ConnectionRequest) :
    Keeps (Holds hand) (Natives.holdConnection transport isServer request) := by
  refine Ensures.bind (ensures_askHost (fun key? => Holds (keyHand key?.toList + hand))
    fun host holds => lasting.park? holds _) fun onConnect? => ?_
  refine Ensures.bind (ensures_askHost
    (fun key? => Holds (keyHand key?.toList + (keyHand onConnect?.toList + hand)))
    fun host holds => lasting.park? holds _) fun onDisconnect? => ?_
  refine Ensures.bind (ensures_askHost
    (fun key? => Holds (keyHand key?.toList + (keyHand onDisconnect?.toList +
      (keyHand onConnect?.toList + hand))))
    fun host holds => lasting.park? holds _) fun onReceived? => ?_
  refine Ensures.bind (ensures_askHost (fun _ => Holds hand) fun host holds => ?_)
    fun _ => keeps_pure _
  refine lasting.deed (.holdConnection _) (Host.view_holdConnection (fun _ _ _ _ _ => rfl) _ _) ?_
  have sameKeys : keyHand (Connection.keys
      ⟨transport, isServer, onConnect?, onDisconnect?, onReceived?, request.context⟩) =
      keyHand onConnect?.toList + (keyHand onDisconnect?.toList + keyHand onReceived?.toList) := by
    rw [← keyHand_append, ← keyHand_append]
    cases onConnect? <;> cases onDisconnect? <;> cases onReceived? <;> rfl
  rw [sameKeys]
  convert holds using 1
  ac_rfl

/-- Starting a transport leaves the hand as it was, whether or not it succeeds. -/
theorem keeps_startConnection
    (lasting : Lasting Holds)
    (isServer : Bool)
    (config : Value) :
    Keeps (Holds hand) (startConnection isServer config) := by
  refine (keeps_converted _).bind fun request => keeps_theHost.bind fun host =>
    (keeps_countOf _ _ _).bind fun bufferSize => keeps_theHost.bind fun host => ?_
  split
  all_goals
    dsimp only
    split
    · exact keeps_pure _
    · exact Keeps.bind (keeps_aside lasting.indifferent (fun _ => rfl) fun _ => rfl) fun _ =>
        keeps_holdConnection lasting _ _ _

/-- Sending keeps what does not depend on the network. -/
theorem keeps_sendPacket
    (indifferent : Indifferent kept)
    (handle : ScriptHandle)
    (named? : Option String)
    (tag : Binary64)
    (content : Value) :
    Keeps kept (sendPacket handle named? tag content) := by
  unfold sendPacket
  split
  · exact keeps_raise _
  · refine (keeps_converted _).bind fun body => keeps_theHost.bind fun host => ?_
    split
    · exact keeps_pure _
    · split
      · exact keeps_raise _
      · exact Keeps.bind (keeps_aside indifferent (fun _ => rfl) fun _ => rfl) fun _ => keeps_pure _

/-- A connection that is disposed of gives up its callbacks, and the hand is as before. -/
theorem keeps_tcpDispose
    (lasting : Lasting Holds)
    (handle : ScriptHandle) :
    Keeps (Holds hand) (tcpDispose handle) := by
  refine Ensures.bind ensures_theHost fun seen => ?_
  split
  · exact ensures_pure fun _ => And.right
  next connection connections removed =>
    refine Ensures.bind (ensures_changeHost (fun _ => Holds hand) ?_) fun _ => keeps_pure _
    rintro _ ⟨rfl, holds⟩
    obtain ⟨found, rfl⟩ := Prod.mk.inj removed
    have removes := lasting.deed (.takeConnection handle) rfl holds
    rw [found] at removes
    exact lasting.letGo removes

/-! ## Events -/

section Events

variable {access : Bridge.Access SessionM} {thrown : Host → Prop}
  (onBridge : Ensures kept access.bridge (fun _ => kept) thrown)
  (onSetBridge : ∀ bridge, Ensures kept (access.setBridge bridge) (fun _ => kept) thrown)
  (onSink : ∀ id event, Ensures kept (access.sink id event) (fun _ => kept) thrown)

include onBridge onSetBridge onSink

/-- The turn of a connection keeps what its sink keeps. -/
theorem ensures_turn
    (id : ConnectionId)
    (key : StateKey)
    (budget : Nat)
    (report : Bridge.PassReport) :
    Ensures kept (Bridge.turn access id key budget report) (fun _ => kept) thrown := by
  induction budget generalizing report with
  | zero => exact ensures_pure fun _ holds => holds
  | succ budget inductionHypothesis =>
      refine onBridge.bind fun bridge => ?_
      split
      · exact ensures_pure fun _ holds => holds
      · exact (onSetBridge _).bind fun _ => (onSink _ _).bind fun _ => inductionHypothesis _

/-- Visiting connections keeps what their sinks keep. -/
theorem ensures_visit
    (order : List (ConnectionId × StateKey))
    (report : Bridge.PassReport) :
    Ensures kept (Bridge.visit access order report) (fun _ => kept) thrown := by
  induction order generalizing report with
  | nil => exact ensures_pure fun _ holds => holds
  | cons entry order inductionHypothesis =>
      exact onBridge.bind fun bridge =>
        (ensures_turn onBridge onSetBridge onSink _ _ _ _).bind fun report =>
          onBridge.bind fun _ => (onSetBridge _).bind fun _ => inductionHypothesis report

/-- What is kept whenever a bridge is read or changed and a sink is called is kept by a whole
pass. -/
theorem ensures_dispatch
    (onArrange : ∀ tracked, Ensures kept (access.arrange tracked) (fun _ => kept) thrown) :
    Ensures kept (Bridge.dispatch access) (fun _ => kept) thrown := by
  refine onBridge.bind fun bridge => ?_
  split
  · exact ensures_pure fun _ holds => holds
  · exact (onSetBridge _).bind fun _ => (onArrange _).bind fun order =>
      (ensures_visit onBridge onSetBridge onSink order _).bind fun report =>
        onBridge.bind fun _ => (onSetBridge _).bind fun _ => ensures_pure fun _ holds => holds

end Events

section Listening

variable {invoke : Invoke}
  (lasting : Lasting Holds)
  (calls : ∀ function arguments hand, Keeps (Holds hand) (invoke function arguments))

include calls

include lasting

/-- Whoever has a pump in hand may tell of the events of its connection. Nothing that a function
throws gets through. -/
theorem ensures_tell
    {handle : ScriptHandle}
    (inHand : .pump handle ∈ hand)
    (connection : Connection)
    (listeners : Listeners)
    (id : ConnectionId)
    (event : ConnectionEvent) :
    Ensures (Holds hand) (tell invoke handle connection listeners id event)
      (fun _ => Holds hand) never := by
  unfold tell
  split
  · exact ensures_pure fun _ holds => holds
  next function hears =>
    exact (ensures_callRecorded calls
      (fun host holds => lasting.deed (.tells function inHand) rfl holds) _ _).bind fun _ =>
        ensures_pure fun _ holds => holds

/-- A pump is in hand as long as the events of its connection are told of. -/
theorem keeps_tcpPumpEvents (handle : ScriptHandle) :
    Keeps (Holds hand) (tcpPumpEvents invoke handle) := by
  refine Ensures.bind ensures_theHost fun seen => ?_
  split
  · exact (keeps_raise _).imp fun _ => And.right
  next connection found =>
    refine Ensures.bind (ensures_changeHost (fun _ => Holds (.pump handle ::ₘ hand)) ?_)
      fun _ => ?_
    · rintro _ ⟨rfl, holds⟩
      exact lasting.deed (.pumps found) rfl holds
    refine Ensures.bind ((ensures_dispatch ?_ ?_ ?_ ?_).ofNever fun _ _ holds => holds)
      fun report => ?_
    · exact ensures_theHost.bind fun _ => ensures_pure fun _ => And.right
    · intro bridge
      change Ensures _ (changeHost fun host =>
        { host with network := host.network.setBridge connection.transport bridge }) _ _
      refine ensures_changeHost _ fun host holds => lasting.deed (.aside ?_) ?_ holds
      · rfl
      · rfl
    · exact ensures_tell lasting calls (Multiset.mem_cons_self _ _) connection _
    · exact fun tracked => ensures_pure fun _ holds => holds
    · refine Ensures.bind (ensures_changeHost (fun _ => Holds hand)
        fun host holds => lasting.deed (.pumped handle) rfl holds) fun _ =>
          Ensures.bind ensures_theHost fun host => ?_
      split
      next code wanted =>
        refine Ensures.bind (ensures_changeHost (fun _ => Holds hand) ?_) fun _ => keeps_raise _
        rintro _ ⟨rfl, holds⟩
        exact lasting (.recalls wanted) holds
      next => exact (keeps_pure _).imp fun _ => And.right

end Listening

theorem keeps_tcpServerEndpoint (handle : ScriptHandle) :
    Keeps kept (tcpServerEndpoint handle) := by
  refine keeps_theHost.bind fun host => ?_
  split
  · exact keeps_pure _
  · exact keeps_pure _

/-- The natives for connections move holdings only by the laws of the host. -/
theorem respects_connections (lasting : Lasting Holds) :
    ∀ entry ∈ connections, Respects Holds entry.2 := by
  simp only [connections, List.forall_mem_cons]
  refine ⟨?_, ?_, ?_, ?_, ?_, ?_, ?_, nofun⟩
  · exact respects_plain fun config _ => keeps_startConnection lasting false config
  · exact respects_plain fun config _ => keeps_startConnection lasting true config
  · exact respects_plain fun (handle, tag, content) _ =>
      keeps_sendPacket lasting.indifferent handle none tag content
  · exact respects_plain fun (handle, name, tag, content) _ =>
      keeps_sendPacket lasting.indifferent handle (some name) tag content
  · exact respects_plain fun handle _ => keeps_tcpDispose lasting handle
  · exact respects_reading fun _ calls handle _ => keeps_tcpPumpEvents lasting calls handle
  · exact respects_plain fun handle _ => keeps_tcpServerEndpoint handle

/-! ## All functions of the host -/

/-- Every native moves holdings only by the laws of the host. -/
theorem respects_all (lasting : Lasting Holds) : ∀ entry ∈ all, Respects Holds entry.2 := by
  simp only [all, List.forall_mem_append]
  exact ⟨⟨⟨⟨⟨respects_tasks lasting, respects_processes lasting⟩, respects_connections lasting⟩,
    respects_web lasting⟩, respects_surroundings (fun _ => lasting.indifferent)
      fun _ _ code => lasting (.asks code)⟩,
    respects_storage fun _ => lasting.indifferent⟩

/-- A native that is found by its name is one of all natives. -/
theorem mem_of_lookup
    {name : String}
    {native : Native}
    (found : all.lookup name = some native) :
    (name, native) ∈ all := by
  obtain ⟨earlier, later, sameEntries, -⟩ := List.lookup_eq_some_iff.mp found
  exact sameEntries ▸ List.mem_append_cons_self

/-- Every function of the host keeps what is lasting, if the functions that it calls do. -/
theorem keeps_call
    {invoke : Invoke}
    (lasting : Lasting Holds)
    (calls : ∀ function arguments hand, Keeps (Holds hand) (invoke function arguments))
    (name : String)
    (arguments : List Value) :
    Keeps (Holds hand) (Natives.call invoke name arguments) := by
  unfold Natives.call
  split
  next native found =>
    unfold Native.call
    split
    · exact keeps_raiseType _
    · exact respects_all lasting _ (mem_of_lookup found) invoke calls arguments hand
  next => exact keeps_raiseType _

end Natives
end ScriptHost
