import ScriptHost.Proofs.Natives.Refusals

/-!
# Calls that are mistaken

A script makes mistakes: it names what it does not hold, gives numbers that are no delays and no
counts, and asks for connections that cannot be started. A function of the host that is called by
mistake refuses, and so the tables of the host are what they were. A run that is offered by mistake
what it cannot take in fails, and leaves the tables as the producer left them.
-/

namespace ScriptHost

/-- A number of milliseconds that is no delay: it is not finite, or it is less than zero. -/
def BadDelay (milliseconds : Binary64) : Prop :=
  ∀ negative significand exponent,
    milliseconds.meaning = .finite negative significand exponent → negative ∧ significand ≠ 0

/-- A number that is no count: it is not whole, or it is less than zero. -/
def BadCount (number : Binary64) : Prop :=
  ∀ value, number.toInt? = some value → value < 0

/-- A bad delay is no number of nanoseconds. -/
theorem BadDelay.nanoseconds_eq
    {milliseconds : Binary64}
    (isBad : BadDelay milliseconds) :
    Delay.nanoseconds milliseconds = .error .invalid := by
  unfold Delay.nanoseconds
  split
  · rfl
  · rfl
  next negative significand exponent isFinite =>
    obtain ⟨isNegative, notZero⟩ := isBad _ _ _ isFinite
    exact if_pos (by simp [isNegative, notZero])

namespace Natives

/-- How a connection is configured for which a script asks. -/
def ConnectionRequest.configuration
    (request : ConnectionRequest)
    (settings : NetworkSettings)
    (bufferSize : Nat) : TransportConfig where
  endpoint := request.endpoint
  bufferSize := bufferSize
  noDelay := request.noDelay?.getD settings.noDelay
  maxFrameLength := settings.maxFrameLength.toNat

/-- A network starts a server or a client. -/
def started
    (network : Network)
    (isServer : Bool)
    (config : TransportConfig) : Except TransportError (TransportId × Network) :=
  if isServer then network.listen config else network.connect config

end Natives

namespace Session

open Natives Parameters

/-- The arguments of a call are read as these values. -/
def Reads
    {α : Type}
    (parameters : Parameters α)
    (arguments : List Value)
    (values : α) : Prop :=
  ∃ rest, parameters.run arguments = .ok (values, rest)

/-- A script makes a mistake in calling a function of the host. -/
inductive Mistaken (session : Session) : String → List Value → Prop
  | unread {α : Type} {name : String} {arguments : List Value} {required : Nat}
      {parameters : Parameters α} {body : Invoke → α → SessionM Value} {error : ConversionError}
      (found : all.lookup name = some (.reading required parameters body))
      (isUnread : parameters.run arguments = .error error) :
      Mistaken session name arguments
  | delay {arguments : List Value} {milliseconds : Binary64}
      (reads : Reads (next Conversion.number) arguments milliseconds)
      (isBad : BadDelay milliseconds) :
      Mistaken session "taskDelay" arguments
  | status {arguments : List Value} {handle : ScriptHandle}
      (reads : Reads (next Conversion.handle) arguments handle)
      (absent : session.host.operations.get? handle = none) :
      Mistaken session "taskStatus" arguments
  | wait {arguments : List Value} {handle : ScriptHandle} {type? : Option String}
      (reads : Reads (do return (← next Conversion.handle, ← next? Conversion.string)) arguments
        (handle, type?))
      (absent : session.host.operations.get? handle = none) :
      Mistaken session "taskWait" arguments
  | runLimit {arguments : List Value} {producer : Function} {limit : Binary64}
      (reads : Reads (do return (← next Conversion.function, ← next? Conversion.number)) arguments
        (producer, some limit))
      (isBad : BadCount limit) :
      Mistaken session "taskRun" arguments
  | batchLimit {arguments : List Value} {handle : ScriptHandle} {limit : Binary64}
      (reads : Reads (do return (← next Conversion.handle, ← next? Conversion.number)) arguments
        (handle, some limit))
      (isBad : BadCount limit) :
      Mistaken session "runBatchProcess" arguments
  | createBatch {arguments : List Value} {callback : Value}
      (reads : Reads (next Conversion.any) arguments callback)
      (notFunction : ∀ function, callback ≠ .function function) :
      Mistaken session "createBatchProcess" arguments
  | addToBatch {arguments : List Value} {handle : ScriptHandle} {request : ProcessRequest}
      {onExit? : Option Function}
      (reads : Reads (do return (← next Conversion.handle, ← processParameters,
        ← next? Conversion.function)) arguments (handle, request, onExit?))
      (absent : session.host.batches.get? handle = none) :
      Mistaken session "addBatchProcess" arguments
  | runBatch {arguments : List Value} {handle : ScriptHandle} {limit? : Option Binary64}
      (reads : Reads (do return (← next Conversion.handle, ← next? Conversion.number)) arguments
        (handle, limit?))
      (absent : session.host.batches.get? handle = none) :
      Mistaken session "runBatchProcess" arguments
  | configuration (isServer : Bool) {arguments : List Value} {config : Value}
      {error : ConversionError}
      (reads : Reads (next Conversion.object) arguments config)
      (isUnread : ConnectionRequest.read config = .error error) :
      Mistaken session (if isServer then "tcpServerStart" else "tcpClientStart") arguments
  | bufferSize (isServer : Bool) {arguments : List Value} {config : Value}
      {request : ConnectionRequest} {bufferSize : Binary64}
      (reads : Reads (next Conversion.object) arguments config)
      (isRead : ConnectionRequest.read config = .ok request)
      (isAsked : request.bufferSize? = some bufferSize)
      (isBad : BadCount bufferSize) :
      Mistaken session (if isServer then "tcpServerStart" else "tcpClientStart") arguments
  | start (isServer : Bool) {arguments : List Value} {config : Value}
      {request : ConnectionRequest}
      (reads : Reads (next Conversion.object) arguments config)
      (isRead : ConnectionRequest.read config = .ok request)
      (fails : ∀ bufferSize, ∃ error, started session.host.network isServer
        (request.configuration session.host.settings.network bufferSize) = .error error) :
      Mistaken session (if isServer then "tcpServerStart" else "tcpClientStart") arguments
  | send {name : String} {arguments : List Value}
      (isSend : name = "tcpClientSend" ∨ name = "tcpServerSend")
      (fails : Refused ((Natives.call silent name arguments).run.run session).1) :
      Mistaken session name arguments
  | dispose {arguments : List Value} {handle : ScriptHandle}
      (reads : Reads (next Conversion.handle) arguments handle)
      (absent : session.host.connections.get? handle = none) :
      Mistaken session "tcpDispose" arguments

/-- A step refuses, leaves the board as it is and hands nothing out. -/
structure Declines
    (step : SessionM Value)
    (session : Session) : Prop where
  isRefused : Refused (step.run.run session).1
  sameBoard : (step.run.run session).2.host.board = session.host.board
  sameHanded : (step.run.run session).2.host.dealings.handed = session.host.dealings.handed

variable {α : Type} {session : Session} {name : String} {arguments : List Value}
variable {required : Nat} {parameters : Parameters α} {body : Invoke → α → SessionM Value}
variable {step : SessionM Value}

theorem declines_raise (message : String) : Declines (raise message) session :=
  ⟨trivial, rfl, rfl⟩

theorem declines_raiseType (message : String) : Declines (raiseType message) session :=
  ⟨trivial, rfl, rfl⟩

/-- An answer that refuses declines. -/
theorem declines_answer
    (answer : Value)
    (isRefused : Refused (.ok answer)) :
    Declines (pure answer) session :=
  ⟨isRefused, rfl, rfl⟩

/-- What runs like something that declines does so, too. -/
theorem Declines.congr
    {other : SessionM Value}
    (declines : Declines step session)
    (same : other.run.run session = step.run.run session) :
    Declines other session :=
  ⟨same ▸ declines.isRefused, same ▸ declines.sameBoard, same ▸ declines.sameHanded⟩

/-- A call refuses if it comes to a refusal whatever the functions do that it might call. -/
theorem Declines.refuses
    (declines : Declines step session)
    (same : ∀ invoke, (Natives.call invoke name arguments).run.run session = step.run.run session)
    (invoke : Invoke) :
    session.Refuses invoke name arguments where
  isRefused := by
    rw [same]
    exact declines.isRefused
  unaided := (same silent).trans (same invoke).symm
  launchesNothing := by rw [same, declines.sameBoard]
  awaitsNothing := by rw [same, declines.sameHanded]

/-- With too few arguments nothing is done. -/
theorem Declines.refuses_of_body
    {native : Native}
    (declines : Declines step session)
    (found : all.lookup name = some native)
    (same : ∀ invoke, (native.body invoke arguments).run.run session = step.run.run session)
    (invoke : Invoke) :
    session.Refuses invoke name arguments := by
  have call_eq (invoke : Invoke) : Natives.call invoke name arguments =
      native.call invoke arguments := by rw [Natives.call, found]
  -- A call with too few arguments refuses too, but in other words than the body.
  by_cases areFew : arguments.length < native.required
  · apply (declines_raiseType _).refuses
    intro invoke
    rw [call_eq, Native.call, if_pos areFew]
  · refine declines.refuses (fun invoke => ?_) invoke
    rw [call_eq, Native.call, if_neg areFew]
    exact same invoke

/-- A native refuses if its body declines what the arguments are read as. -/
theorem Declines.refuses_of_reads
    {values : α}
    (declines : Declines step session)
    (found : all.lookup name = some (.reading required parameters body))
    (reads : Reads parameters arguments values)
    (same : ∀ invoke, (body invoke values).run.run session = step.run.run session)
    (invoke : Invoke) :
    session.Refuses invoke name arguments := by
  obtain ⟨rest, isRead⟩ := reads
  refine declines.refuses_of_body found (fun invoke => ?_) invoke
  change (converted (parameters.run arguments) >>= _).run.run session = _
  rw [isRead]
  exact same invoke

/-! ## Counts -/

/-- A bad count is refused by its name. -/
theorem countOf_of_bad
    {number : Binary64}
    (isBad : BadCount number)
    (name : String)
    (default : UInt64) :
    countOf name (some number) default = countOf.refuse name number := by
  unfold countOf
  dsimp only
  split
  next value isWhole => exact if_pos (isBad value isWhole)
  next => rfl

/-- A count that is not bad is taken as it is. -/
theorem exists_countOf_eq
    {number? : Option Binary64}
    (isCount : ∀ number ∈ number?, ¬BadCount number)
    (name : String)
    (default : UInt64) :
    ∃ count, countOf name number? default = pure count := by
  cases number? with
  | none => exact ⟨_, rfl⟩
  | some number =>
      have isCount := isCount number rfl
      simp only [BadCount, not_forall] at isCount
      obtain ⟨value, isWhole, notNegative⟩ := isCount
      refine ⟨min value.toNat (UInt64.size - 1), ?_⟩
      unfold countOf
      dsimp only
      rw [isWhole]
      exact if_neg notNegative

/-- A number is taken for a count or refused. -/
theorem countOf_cases
    (name : String)
    (number? : Option Binary64)
    (default : UInt64) :
    (∃ count, countOf name number? default = pure count) ∨
      ∃ number, countOf name number? default = countOf.refuse name number := by
  by_cases isCount : ∀ number ∈ number?, ¬BadCount number
  · exact .inl (exists_countOf_eq isCount name default)
  · simp only [not_forall, not_not] at isCount
    obtain ⟨number, rfl, isBad⟩ := isCount
    exact .inr ⟨number, countOf_of_bad isBad name default⟩

/-- What is done with a count is done in the same session. -/
theorem run_countOf_bind_congr
    (name : String)
    (number? : Option Binary64)
    (default : UInt64)
    {next other : Nat → SessionM Value}
    (same : ∀ count, (next count).run.run session = (other count).run.run session) :
    (countOf name number? default >>= next).run.run session =
      (countOf name number? default >>= other).run.run session := by
  obtain ⟨count, isCount⟩ | ⟨number, isRefused⟩ := countOf_cases name number? default
  · rw [isCount]
    exact same count
  · rw [isRefused]
    rfl

/-- A step that goes on with a count declines if it does so whatever the count is. -/
theorem declines_countOf
    (name : String)
    (number? : Option Binary64)
    (default : UInt64)
    {next : Nat → SessionM Value}
    (declines : ∀ count, Declines (next count) session) :
    Declines (countOf name number? default >>= next) session := by
  obtain ⟨count, isCount⟩ | ⟨number, isRefused⟩ := countOf_cases name number? default
  · rw [isCount]
    exact declines count
  · rw [isRefused]
    exact ⟨trivial, rfl, rfl⟩

/-! ## Mistakes -/

/-- A delay that is bad is declined. -/
theorem declines_taskDelay
    {milliseconds : Binary64}
    (isBad : BadDelay milliseconds) :
    Declines (taskDelay milliseconds) session := by
  unfold taskDelay
  rw [isBad.nanoseconds_eq]
  exact declines_raise _

/-- That the script misses an operation is recorded, and nothing else is done. -/
theorem declines_of_missed
    {handle : ScriptHandle}
    (ran : step.run.run session = (.error (unknown handle), session.noting (.missed handle))) :
    Declines step session where
  isRefused := by
    rw [ran]
    trivial
  sameBoard := by
    rw [ran]
    rfl
  sameHanded := by
    rw [ran]
    exact Dealings.handed_concat_none rfl

section Batches

variable {handle : ScriptHandle} (absent : session.host.batches.get? handle = none)

include absent

/-- A process for a batch that is not there is declined. -/
theorem declines_addBatchProcess
    (request : ProcessRequest)
    (onExit? : Option Function) :
    Declines (addBatchProcess handle request onExit?) session := by
  refine (declines_answer (.bool false) trivial).congr ?_
  rw [addBatchProcess, run_bind, run_theHost]
  dsimp only
  rw [absent]

/-- A batch that is not there is not run. -/
theorem run_runBatch_of_none
    (invoke : Invoke)
    (limit fuel : Nat) :
    (runBatch invoke handle limit fuel).run.run session = (.ok (.bool false), session) := by
  have claimed : (claimBatch handle).run.run session = (.ok none, session) := by
    rw [claimBatch, run_askHost, HandleTable.remove, absent,
      HandleTable.erase_of_get?_eq_none absent]
    rfl
  rw [runBatch, run_bind, claimed]
  rfl

end Batches

/-- A batch whose callback is no function is declined. -/
theorem declines_createBatchProcess
    {callback : Value}
    (notFunction : ∀ function, callback ≠ .function function) :
    Declines (createBatchProcess callback) session := by
  unfold createBatchProcess
  split
  next function => exact absurd rfl (notFunction function)
  next => exact ⟨trivial, rfl, rfl⟩

/-- A transport whose configuration cannot be read is declined. -/
theorem declines_startConnection_of_unread
    {config : Value}
    {error : ConversionError}
    (isUnread : ConnectionRequest.read config = .error error)
    (isServer : Bool) :
    Declines (startConnection isServer config) session := by
  unfold startConnection
  rw [isUnread]
  exact declines_raiseType _

section Starting

variable {config : Value} {request : ConnectionRequest}
  (isRead : ConnectionRequest.read config = .ok request)

include isRead

/-- A connection whose configuration is read starts once the size of its buffer is known. -/
theorem run_startConnection
    (isServer : Bool) :
    (startConnection isServer config).run.run session =
      (countOf "bufferSize" request.bufferSize? session.host.settings.network.defaultBufferSize
        >>= fun bufferSize => do
          match started (← theHost).network isServer
              (request.configuration session.host.settings.network bufferSize) with
          | .error _ => pure .null
          | .ok (transport, network) => do
              changeHost fun host => { host with network := network }
              Natives.holdConnection transport isServer request).run.run session := by
  rw [startConnection, run_bind, isRead, show (converted (.ok request)).run.run session =
    (.ok request, session) from rfl]
  dsimp only
  rw [run_bind, run_theHost]
  dsimp only
  unfold started ConnectionRequest.configuration
  rfl

/-- A transport with a bad buffer size is declined. -/
theorem declines_startConnection_of_bad
    {bufferSize : Binary64}
    (isAsked : request.bufferSize? = some bufferSize)
    (isBad : BadCount bufferSize)
    (isServer : Bool) :
    Declines (startConnection isServer config) session := by
  refine Declines.congr ?_ (run_startConnection isRead isServer)
  rw [isAsked, countOf_of_bad isBad]
  exact declines_raise _

/-- A transport that cannot start is declined. -/
theorem declines_startConnection_of_fails
    (isServer : Bool)
    (fails : ∀ bufferSize, ∃ error, started session.host.network isServer
      (request.configuration session.host.settings.network bufferSize) = .error error) :
    Declines (startConnection isServer config) session := by
  refine Declines.congr ?_ (run_startConnection isRead isServer)
  refine declines_countOf _ _ _ fun bufferSize => (declines_answer .null trivial).congr ?_
  obtain ⟨error, failed⟩ := fails bufferSize
  rw [run_bind, run_theHost]
  dsimp only
  rw [failed]

end Starting

/-- A connection that is not there is not disposed of. -/
theorem declines_tcpDispose
    {handle : ScriptHandle}
    (absent : session.host.connections.get? handle = none) :
    Declines (tcpDispose handle) session := by
  refine (declines_answer (.bool false) trivial).congr ?_
  rw [tcpDispose, run_bind, run_theHost]
  dsimp only
  rw [HandleTable.remove, absent]

/-- What declines to start a transport refuses the call. -/
theorem Declines.refuses_start
    {isServer : Bool}
    {config : Value}
    (declines : Declines (startConnection isServer config) session)
    (reads : Reads (next Conversion.object) arguments config)
    (invoke : Invoke) :
    session.Refuses invoke (if isServer then "tcpServerStart" else "tcpClientStart") arguments := by
  cases isServer
  all_goals exact declines.refuses_of_reads rfl reads (fun _ => rfl) invoke

/-- A function of the host that calls nobody and leaves the affairs and the books alone refuses
whenever it comes to a refusal. -/
theorem refuses_of_keeps
    {body : α → SessionM Value}
    (found : all.lookup name = some (.plain required parameters body))
    (keeps : ∀ {kept : Host → Prop}, Indifferent kept → ∀ values, Keeps kept (body values))
    (isRefused : Refused ((Natives.call silent name arguments).run.run session).1)
    (invoke : Invoke) :
    session.Refuses invoke name arguments := by
  have call_eq (invoke : Invoke) : Natives.call invoke name arguments =
      Native.call (.plain required parameters body) silent arguments := by
    rw [Natives.call, found]
    rfl
  have indifferent : Indifferent fun host => host.board = session.host.board ∧
      host.dealings = session.host.dealings := fun host later same sameBooks both =>
    ⟨(congrArg Affairs.board same).trans both.1,
      (congrArg (fun books => books.2.2) sameBooks).trans both.2⟩
  have keepsCall : Keeps (fun host => host.board = session.host.board ∧
      host.dealings = session.host.dealings)
      (Native.call (.plain required parameters body) silent arguments) := by
    unfold Native.call
    split
    · exact keeps_raiseType _
    · exact (keeps_converted _).bind fun read => keeps indifferent read.1
  rw [call_eq] at isRefused
  obtain ⟨sameBoard, sameDealings⟩ := ensures_of_refused
    (Ensures.weaken keepsCall (fun _ => id) (fun _ _ holds _ => holds) fun _ => id)
    ⟨rfl, rfl⟩ isRefused
  exact Declines.refuses ⟨isRefused, sameBoard, congrArg Dealings.handed sameDealings⟩
    (fun invoke => by rw [call_eq]) invoke

/-- A function of the host that is called by mistake refuses. -/
theorem Mistaken.refuses
    (mistaken : session.Mistaken name arguments)
    (invoke : Invoke) :
    session.Refuses invoke name arguments := by
  cases mistaken with
  | unread found isUnread =>
      apply (declines_raiseType _).refuses_of_body found
      intro invoke
      change (converted _ >>= _).run.run session = _
      rw [isUnread]
      rfl
  | delay reads isBad =>
      exact (declines_taskDelay isBad).refuses_of_reads rfl reads (fun _ => rfl) invoke
  | status reads absent =>
      exact (declines_of_missed (misses_of_none absent).status).refuses_of_reads rfl reads
        (fun _ => rfl) invoke
  | wait reads absent =>
      exact (declines_of_missed ((misses_of_none absent).wait _)).refuses_of_reads rfl reads
        (fun _ => rfl) invoke
  | runLimit reads isBad =>
      apply (declines_raise _).refuses_of_reads rfl reads
      intro invoke
      dsimp only
      rw [taskRun, run_bind, run_theHost]
      dsimp only
      rw [countOf_of_bad isBad]
      rfl
  | batchLimit reads isBad =>
      apply (declines_raise _).refuses_of_reads rfl reads
      intro invoke
      dsimp only
      rw [runBatchProcess, run_bind, run_theHost]
      dsimp only
      rw [countOf_of_bad isBad]
      rfl
  | createBatch reads notFunction =>
      exact (declines_createBatchProcess notFunction).refuses_of_reads rfl reads
        (fun _ => rfl) invoke
  | addToBatch reads absent =>
      exact (declines_addBatchProcess absent _ _).refuses_of_reads rfl reads (fun _ => rfl) invoke
  | runBatch reads absent =>
      apply (declines_countOf "limit" _ session.host.settings.scheduler.batchConcurrency
        fun _ => declines_answer (.bool false) trivial).refuses_of_reads rfl reads
      intro invoke
      exact run_countOf_bind_congr _ _ _ fun limit => run_runBatch_of_none absent invoke limit _
  | configuration isServer reads isUnread =>
      exact (declines_startConnection_of_unread isUnread isServer).refuses_start reads invoke
  | bufferSize isServer reads isRead isAsked isBad =>
      exact (declines_startConnection_of_bad isRead isAsked isBad isServer).refuses_start reads
        invoke
  | start isServer reads isRead fails =>
      exact (declines_startConnection_of_fails isRead isServer fails).refuses_start reads invoke
  | send isSend fails =>
      rcases isSend with rfl | rfl
      · exact refuses_of_keeps rfl (fun indifferent values =>
          keeps_sendPacket indifferent values.1 none values.2.1 values.2.2) fails invoke
      · exact refuses_of_keeps rfl (fun indifferent values =>
          keeps_sendPacket indifferent values.1 (some values.2.1) values.2.2.1 values.2.2.2) fails
          invoke
  | dispose reads absent =>
      exact (declines_tcpDispose absent).refuses_of_reads rfl reads (fun _ => rfl) invoke

/-! ## What a run cannot take in -/

/-- What a producer returns is not fit for a run: it is no array, or one of its items is not what it
must be, or it names an operation that the script does not hold. -/
inductive Unfit (host : Host) : Value → Prop
  | notArray {product : Value}
      (notAbsent : product.isAbsent = false)
      (notArray : ∀ items, product ≠ .array items) :
      Unfit host product
  | handle {items : List Value} {error : ConversionError}
      (isUnread : Conversion.handle (items.getD 0 .undefined) = .error error) :
      Unfit host (.array items)
  | type {items : List Value} {error : ConversionError}
      (isUnread : Conversion.optional Conversion.string (items.getD 1 .undefined) = .error error) :
      Unfit host (.array items)
  | callback {items : List Value} {error : ConversionError}
      (isUnread : Conversion.function (items.getD 2 .undefined) = .error error) :
      Unfit host (.array items)
  | operation {items : List Value} {handle : ScriptHandle}
      (isRead : Conversion.handle (items.getD 0 .undefined) = .ok handle)
      (absent : host.operations.get? handle = none) :
      Unfit host (.array items)

/-- A product is read item by item. -/
theorem readProduct_eq_ok
    {items : List Value}
    {handle : ScriptHandle}
    {type? : Option String}
    {function : Function}
    (isProduct : readProduct items = .ok (handle, type?, function)) :
    Conversion.handle (items.getD 0 .undefined) = .ok handle ∧
      Conversion.optional Conversion.string (items.getD 1 .undefined) = .ok type? ∧
        Conversion.function (items.getD 2 .undefined) = .ok function := by
  unfold readProduct at isProduct
  dsimp only at isProduct
  generalize Conversion.handle (items.getD 0 .undefined) = handleRead at *
  generalize Conversion.optional Conversion.string (items.getD 1 .undefined) = typeRead at *
  generalize Conversion.function (items.getD 2 .undefined) = functionRead at *
  cases handleRead with
  | error error => cases isProduct
  | ok handle =>
      cases typeRead with
      | error error => cases isProduct
      | ok type? =>
          cases functionRead with
          | error error => cases isProduct
          | ok function =>
              cases isProduct
              exact ⟨rfl, rfl, rfl⟩

/-- A product that is read is unfit only if the script does not hold the operation. -/
theorem Unfit.get?_eq_none
    {host : Host}
    {items : List Value}
    {handle : ScriptHandle}
    {type? : Option String}
    {function : Function}
    (unfit : Unfit host (.array items))
    (isProduct : readProduct items = .ok (handle, type?, function)) :
    host.operations.get? handle = none := by
  obtain ⟨handleRead, typeRead, functionRead⟩ := readProduct_eq_ok isProduct
  cases unfit with
  | notArray _ notArray => exact absurd rfl (notArray items)
  | handle isUnread => cases isUnread.symm.trans handleRead
  | type isUnread => cases isUnread.symm.trans typeRead
  | callback isUnread => cases isUnread.symm.trans functionRead
  | operation isRead absent =>
      cases isRead.symm.trans handleRead
      exact absent

/-- A producer that returns what is not fit fails, and the tables are as it left them. -/
theorem run_produce_of_unfit
    {invoke : Invoke}
    {producer : Function}
    {product : Value}
    {later : Session}
    (returned : (invoke producer []).run.run session = (.ok product, later))
    (unfit : Unfit later.host product) :
    ∃ message final, (produce invoke producer).run.run session = (.ok (.failed message), final) ∧
      final.host.tables = later.host.tables := by
  have reports : (reported (invoke producer [])).run.run session = (.ok (.ok product), later) := by
    rw [run_reported, returned]
  rw [produce, run_bind, reports]
  dsimp only
  split
  next isFailed => cases isFailed
  next isUndefined =>
    cases isUndefined
    cases unfit with
    | notArray notAbsent => cases notAbsent
  next isNull =>
    cases isNull
    cases unfit with
    | notArray notAbsent => cases notAbsent
  next items isArray =>
    cases isArray
    cases isProduct : readProduct items with
    | error error =>
        refine ⟨error.message, later, ?_, rfl⟩
        rw [takeIn, isProduct]
        rfl
    | ok product =>
        obtain ⟨handle, type?, function⟩ := product
        exact ⟨_, _, run_takeIn_of_none isProduct (unfit.get?_eq_none isProduct), rfl⟩
  next => exact ⟨badProduct, later, rfl, rfl⟩

section Failing

variable {dispatch : Scheduler.Completion Awaiter → SessionM (Except String Unit)}
variable {discard : Awaiter → SessionM Unit}
variable {producing : SessionM (Scheduler.Production Awaiter String)}
variable {message : String} {final : Session}

/-- A run takes nothing more in once its producer has failed. -/
theorem run_pull_of_failed
    {run : Scheduler.Run Awaiter String}
    (failed : producing.run.run session = (.ok (.failed message), final))
    (goesOn : run.failure? = none)
    (hasRoom : run.slots.isFull = false)
    (fuel : Nat) :
    (Scheduler.pull (environment dispatch discard) producing (fuel + 2) run).run.run session =
      (.ok (some (run.fail message)), final) := by
  have hasFailed : (run.fail message).failure?.isSome = true := rfl
  have notFailed : ¬run.failure?.isSome = true := by
    rw [goesOn]
    exact Bool.false_ne_true
  rw [Scheduler.pull, if_neg notFailed, if_neg (ne_true_of_eq_false hasRoom), run_bind, failed]
  dsimp only
  rw [Scheduler.pull, if_pos hasFailed]
  rfl

/-- The session once a mailbox was opened. -/
def opening (session : Session) : Session :=
  session.withHost { session.host with board := session.host.board.openMailbox.1 }

/-- A run whose producer fails at first fails with the same words. -/
theorem run_runPull_of_failed
    (failed : producing.run.run session.opening = (.ok (.failed message), final))
    (limit fuel : Nat) :
    (Scheduler.runPull (environment dispatch discard) limit producing (fuel + 2)).run.run session =
      (.ok (some (.error message)), final) := by
  have begun : (Scheduler.begin (environment dispatch discard) limit).run.run session =
      (.ok (.start limit session.host.board.mailboxes.size), session.opening) := rfl
  rw [Scheduler.runPull, run_bind, begun]
  dsimp only
  rw [run_bind, run_pull_of_failed failed rfl (Scheduler.isFull_start ..) fuel]
  rfl

end Failing

/-- A run to whose producer something unfit comes first fails, and the tables are as the producer
left them. -/
theorem run_taskRun_of_unfit
    {invoke : Invoke}
    {producer : Function}
    {product : Value}
    {later : Session}
    {limit? : Option Binary64}
    (returned : (invoke producer []).run.run session.opening = (.ok product, later))
    (unfit : Unfit later.host product)
    (isCount : ∀ limit ∈ limit?, ¬BadCount limit) :
    ∃ message final, (taskRun invoke producer limit?).run.run session =
        (raise message : SessionM Value).run.run final ∧
      final.host.tables = later.host.tables := by
  obtain ⟨message, final, failed, same⟩ := run_produce_of_unfit returned unfit
  obtain ⟨limit, counted⟩ := exists_countOf_eq isCount "limit"
    session.host.settings.scheduler.defaultConcurrency
  have runs : runFuel = 999998 + 2 := rfl
  refine ⟨message, final, ?_, same⟩
  rw [taskRun, run_bind, run_theHost]
  dsimp only
  rw [counted, pure_bind, run_bind, runs, run_runPull_of_failed failed]
  rfl

/-! ## Refusals -/

/-- Whoever refuses what a script asks, and has not called back, launched work or handed out what
came of an operation, leaves the tables of the host alone. Every call that is made by mistake is
refused so, whatever the functions do. And when a producer returns what is not fit for a run, the
run fails, and the tables are as the producer left them. -/
theorem refusals_spare_tables
    (invoke : Invoke)
    (session : Session) :
    (∀ name arguments, session.Refuses invoke name arguments →
      ((Natives.call invoke name arguments).run.run session).2.host.tables =
        session.host.tables) ∧
      (∀ name arguments, session.Mistaken name arguments →
        session.Refuses invoke name arguments) ∧
      (∀ producer product later, (invoke producer []).run.run session = (.ok product, later) →
        Unfit later.host product →
          ∃ message final,
            (produce invoke producer).run.run session = (.ok (.failed message), final) ∧
              final.host.tables = later.host.tables) ∧
      ∀ producer product later limit?,
        (invoke producer []).run.run session.opening = (.ok product, later) →
          Unfit later.host product → (∀ limit ∈ limit?, ¬BadCount limit) →
            ∃ message final, (taskRun invoke producer limit?).run.run session =
                (raise message : SessionM Value).run.run final ∧
              final.host.tables = later.host.tables :=
  ⟨fun _ _ => tables_eq_of_refuses, fun _ _ mistaken => mistaken.refuses invoke,
    fun _ _ _ => run_produce_of_unfit, fun _ _ _ _ => run_taskRun_of_unfit⟩

/-- A script has made a delay and a batch. -/
def holding : Session :=
  let making : SessionM Value := do
    let _ ← Natives.call silent "taskDelay" [.int 5]
    Natives.call silent "createBatchProcess" [.function (.script "told")]
  (making.run.run (.start (.start .default [] (.ofWorkspace "work")) .empty)).2

/-- Every function returns the delay with a number for a type. -/
def misproducing : Invoke :=
  fun _ _ => pure (.array [.int 1, .int 5, .function (.script "told")])

/-- Waiting for another operation, and running the delay for a type that is none, leaves a script
with what it has. -/
theorem holding_refusals :
    holding.host.pendingOperations = 1 ∧ holding.host.liveCallables = 1 ∧
      holding.Refuses misproducing "taskWait" [.int 2] ∧
      ((Natives.call misproducing "taskWait" [.int 2]).run.run holding).2.host.tables =
        holding.host.tables ∧
      (∃ message final, (produce misproducing (.script "next")).run.run holding =
          (.ok (.failed message), final) ∧ final.host.tables = holding.host.tables) ∧
      ∃ message final, (taskRun misproducing (.script "next") none).run.run holding =
          (raise message : SessionM Value).run.run final ∧
        final.host.tables = holding.host.tables := by
  obtain ⟨spares, refuses, fails, runFails⟩ := refusals_spare_tables misproducing holding
  have mistaken : holding.Mistaken "taskWait" [.int 2] :=
    @Mistaken.wait holding [.int 2] ⟨2⟩ none ⟨[], rfl⟩ (by decide +kernel)
  have unfit (host : Host) : Unfit host (.array [.int 1, .int 5, .function (.script "told")]) :=
    @Unfit.type host _ ⟨"int", "string", none⟩ rfl
  exact ⟨by decide +kernel, by decide +kernel, refuses _ _ mistaken,
    spares _ _ (refuses _ _ mistaken), fails _ _ _ rfl (unfit _),
    runFails _ _ holding.opening none rfl (unfit _) nofun⟩

end Session
end ScriptHost
