import ScriptHost.Proofs.Bridge.Confinement
import ScriptHost.Proofs.Transport

/-!
# Links of one name

The writers of a transport and its bridge are two tables that know a link by the name of its
peer only. Each link changes one after the other when it opens and when it ends, and between
these steps any other link may go on. As long as a link opens only after the earlier ones of its
name have ended, the two tables agree on which peers have an open link. Where links of one name
overlap, the end of an older one undoes what a newer one has done.
-/

namespace ScriptHost
namespace Bridge

/-! ## Who is connected -/

variable {bridge : Bridge}

/-- When a connection begins, its peer is connected, and all others are as before. -/
theorem Sound.isConnected_onConnected
    (sound : bridge.Sound)
    (id other : ConnectionId) :
    (bridge.onConnected id).isConnected other =
      if other = id then true else bridge.isConnected other := by
  rw [isConnected, sound.state?_onConnected]
  by_cases same : other = id
  · rw [if_pos same, if_pos same, Option.any_some, ConnectionState.connect]
    split
    · assumption
    · rfl
  · rw [if_neg same, if_neg same, isConnected]

/-- When a connection ends, its peer is not connected, and all others are as before. -/
theorem Sound.isConnected_onDisconnected
    (sound : bridge.Sound)
    (id other : ConnectionId) :
    (bridge.onDisconnected id).isConnected other =
      if other = id then false else bridge.isConnected other := by
  rw [isConnected, onDisconnected, sound.state?_update]
  by_cases same : other = id
  · rw [if_pos same, if_pos same, Option.any_map]
    cases bridge.state? id with
    | none => rfl
    | some state => cases connected : state.connected <;>
        simp [ConnectionState.disconnect, connected]
  · rw [if_neg same, if_neg same, isConnected]

/-- A change that neither begins nor ends a connection. -/
theorem isConnected_updateAt
    (bridge : Bridge)
    (key : StateKey)
    {change : ConnectionState → ConnectionState}
    (keeps : ∀ state, (change state).connected = state.connected)
    (id : ConnectionId) :
    (bridge.updateAt key change).isConnected id = bridge.isConnected id := by
  have sameKeys : (bridge.updateAt key change).key? id = bridge.key? id := rfl
  rw [isConnected, isConnected, state?, state?, sameKeys]
  cases bridge.key? id with
  | none => rfl
  | some other =>
      rw [Option.map_some, Option.map_some, Option.any_some, Option.any_some, stateAt, stateAt,
        updateAt, Array.getElem?_modify]
      by_cases same : key = other
      · rw [if_pos same]
        cases bridge.states[other]? with
        | none => rfl
        | some state => exact keeps state
      · rw [if_neg same]

/-- What is received neither begins nor ends a connection. -/
theorem connected_receive
    (state : ConnectionState)
    (chunk : Bytes) :
    (state.receive chunk).connected = state.connected := by
  rw [ConnectionState.receive]
  split <;> rfl

/-- Nobody is connected or disconnected by bytes that arrive. -/
theorem isConnected_onBytesReceived
    (bridge : Bridge)
    (id : ConnectionId)
    (chunk : Bytes)
    (other : ConnectionId) :
    (bridge.onBytesReceived id chunk).isConnected other = bridge.isConnected other := by
  rw [onBytesReceived, update]
  split
  · exact isConnected_updateAt bridge _ (fun state => connected_receive state chunk) other
  · rfl

/-- A connection that is forgotten is over already. -/
theorem isConnected_retireIfIdle
    (bridge : Bridge)
    (id other : ConnectionId) :
    (bridge.retireIfIdle id).isConnected other = bridge.isConnected other := by
  rw [isConnected, state?_retireIfIdle]
  split
  · rename_i isForgotten
    obtain ⟨rfl, isIdle⟩ := isForgotten
    obtain ⟨state, found, isIdle⟩ := (Option.any_eq_true _ _).mp isIdle
    rw [ConnectionState.isIdle, Bool.and_eq_true, Bool.not_eq_true'] at isIdle
    rw [isConnected, found, Option.any_none, Option.any_some, isIdle.1]
  · rfl

/-- What a pass does to a bridge at a time: it marks it, takes an event of a state, or forgets a
connection that is over. -/
inductive Serves (bridge : Bridge) : Bridge → Prop
  | marks (dispatching : Bool) : Serves bridge (bridge.mark dispatching)
  | takes
      {key : StateKey}
      {event : ConnectionEvent}
      {next : Bridge}
      (isNext : bridge.popAt key = some (event, next)) :
      Serves bridge next
  | retires (id : ConnectionId) : Serves bridge (bridge.retireIfIdle id)

/-- A bridge that is served stays sound. -/
theorem Serves.sound
    {next : Bridge}
    (serves : bridge.Serves next)
    (sound : bridge.Sound) :
    next.Sound := by
  cases serves with
  | marks dispatching => exact sound.mark dispatching
  | takes isNext =>
      obtain ⟨queue, -, rfl⟩ := popAt_eq_some_iff.mp isNext
      exact sound.updateAt _ _
  | retires id => exact sound.retireIfIdle id

/-- Serving a bridge neither begins nor ends a connection. -/
theorem Serves.isConnected_eq
    {next : Bridge}
    (serves : bridge.Serves next)
    (id : ConnectionId) :
    next.isConnected id = bridge.isConnected id := by
  cases serves with
  | marks dispatching => rfl
  | takes isNext =>
      obtain ⟨queue, -, rfl⟩ := popAt_eq_some_iff.mp isNext
      apply isConnected_updateAt
      exact fun state => rfl
  | retires other => exact isConnected_retireIfIdle bridge other id

/-- Whatever changes a bridge, in a pass or outside, serves it or tells it something. -/
theorem Change.serves_or_isTold
    {next : Bridge}
    (change : Change bridge next) :
    bridge.Serves next ∨ ∃ input : Input, next = input.onBridge bridge := by
  cases change with
  | isTold input => exact .inr ⟨input, rfl⟩
  | takes isNext => exact .inl (.takes isNext)
  | retires id => exact .inl (.retires id)
  | marks dispatching => exact .inl (.marks dispatching)

end Bridge

namespace Transport

/-- A writer that is removed is gone, and all others stay. -/
theorem writer?_removeWriter
    (transport : Transport)
    (id other : ConnectionId) :
    (transport.removeWriter id).writer? other =
      if other = id then none else transport.writer? other :=
  Entries.lookup_erase transport.writers id other

/-- The writer that is inserted is the one of its peer, and all others stay. -/
theorem writer?_insertWriter
    (transport : Transport)
    (id : ConnectionId)
    (link : LinkId)
    (other : ConnectionId) :
    (transport.insertWriter id link).writer? other =
      if other = id then some link else transport.writer? other :=
  Entries.lookup_store transport.writers id link other

/-! ## Links step by step -/

/-- What a link does to the tables of its transport: the two steps in which it opens, and the two
in which it ends. -/
inductive LinkStep
  | inserts
  | connects
  | removes
  | disconnects
  deriving DecidableEq

/-- A step of a link that goes by a name. -/
structure LinkEvent where
  id : ConnectionId
  link : LinkId
  step : LinkStep
  deriving DecidableEq

/-- A transport and what its links have done. -/
structure Traffic where
  transport : Transport
  history : List LinkEvent

namespace Traffic

/-- A transport on which no link has opened. -/
def new (config : TransportConfig) : Traffic :=
  ⟨.new config, []⟩

/-- A link has opened and has not begun to end. -/
def IsOpen
    (traffic : Traffic)
    (id : ConnectionId)
    (link : LinkId) : Prop :=
  ⟨id, link, .connects⟩ ∈ traffic.history ∧ ⟨id, link, .removes⟩ ∉ traffic.history

/-- What happens next: a link makes a step, or reads something, or the bridge is served by a
pass. The steps of one link come in order, and nothing is said of those of different links. -/
inductive Step (traffic : Traffic) : Traffic → Prop
  | inserts
      {id : ConnectionId}
      {link : LinkId}
      (isNew : ∀ id step, ⟨id, link, step⟩ ∉ traffic.history) :
      Step traffic
        ⟨traffic.transport.insertWriter id link, traffic.history ++ [⟨id, link, .inserts⟩]⟩
  | connects
      {id : ConnectionId}
      {link : LinkId}
      (wasInserted : ⟨id, link, .inserts⟩ ∈ traffic.history)
      (isFirst : ⟨id, link, .connects⟩ ∉ traffic.history) :
      Step traffic
        ⟨traffic.transport.reportConnected id, traffic.history ++ [⟨id, link, .connects⟩]⟩
  | reads
      {id : ConnectionId}
      {link : LinkId}
      (isOpen : traffic.IsOpen id link)
      (piece : Bytes) :
      Step traffic ⟨traffic.transport.read id piece, traffic.history⟩
  | removes
      {id : ConnectionId}
      {link : LinkId}
      (isOpen : traffic.IsOpen id link) :
      Step traffic
        ⟨traffic.transport.removeWriter id, traffic.history ++ [⟨id, link, .removes⟩]⟩
  | disconnects
      {id : ConnectionId}
      {link : LinkId}
      (wasRemoved : ⟨id, link, .removes⟩ ∈ traffic.history)
      (isFirst : ⟨id, link, .disconnects⟩ ∉ traffic.history) :
      Step traffic
        ⟨traffic.transport.reportDisconnected id, traffic.history ++ [⟨id, link, .disconnects⟩]⟩
  | serves
      {bridge : Bridge}
      (serves : traffic.transport.bridge.Serves bridge) :
      Step traffic ⟨{ traffic.transport with bridge := bridge }, traffic.history⟩

/-- What may have become of a transport. -/
def Reached
    (config : TransportConfig)
    (traffic : Traffic) : Prop :=
  Relation.ReflTransGen Step (new config) traffic

/-- No link is between the two steps in which it opens or ends. -/
def AtRest (traffic : Traffic) : Prop :=
  ∀ id link,
    (⟨id, link, .inserts⟩ ∈ traffic.history → ⟨id, link, .connects⟩ ∈ traffic.history) ∧
    (⟨id, link, .removes⟩ ∈ traffic.history → ⟨id, link, .disconnects⟩ ∈ traffic.history)

/-- The writers and the bridge agree on whether a peer is connected, and it is just if a link of
its name is open. -/
def AgreesOn
    (traffic : Traffic)
    (id : ConnectionId) : Prop :=
  ((traffic.transport.writer? id).isSome = true ↔
    traffic.transport.bridge.isConnected id = true) ∧
  (traffic.transport.bridge.isConnected id = true ↔ ∃ link, traffic.IsOpen id link)

end Traffic

/-- The last of some steps that links of a name have made. -/
def lastOf?
    (id : ConnectionId)
    (steps : List LinkStep)
    (history : List LinkEvent) : Option LinkStep :=
  (history.filter fun event => event.id = id ∧ event.step ∈ steps).getLast?.map LinkEvent.step

/-- The last step is the new one if it is meant, or else the last one before it. -/
theorem lastOf?_concat
    (id : ConnectionId)
    (steps : List LinkStep)
    (history : List LinkEvent)
    (event : LinkEvent) :
    lastOf? id steps (history ++ [event]) =
      if event.id = id ∧ event.step ∈ steps then some event.step
      else lastOf? id steps history := by
  rw [lastOf?, List.filter_append, List.filter_singleton]
  by_cases isMeant : event.id = id ∧ event.step ∈ steps
  · simp [isMeant]
  · simp [isMeant, lastOf?]

/-- If a link of the name has made one of two steps, the last of them is one of the two. -/
theorem lastOf?_of_mem
    {id : ConnectionId}
    {link : LinkId}
    {first : LinkStep}
    {history : List LinkEvent}
    (member : ⟨id, link, first⟩ ∈ history)
    (second : LinkStep) :
    lastOf? id [first, second] history = some first ∨
      lastOf? id [first, second] history = some second := by
  have isMeant : (⟨id, link, first⟩ : LinkEvent) ∈
      history.filter fun event => event.id = id ∧ event.step ∈ [first, second] :=
    List.mem_filter.mpr ⟨member, by simp⟩
  have isSome := List.getLast?_eq_some_getLast (List.ne_nil_of_mem isMeant)
  have isOne := List.mem_filter.mp (List.mem_of_getLast? isSome)
  have isStep := (of_decide_eq_true isOne.2).2
  rw [lastOf?, isSome, Option.map_some]
  simpa using isStep

/-- The step that comes before a step of the same link. -/
def LinkStep.before? : LinkStep → Option LinkStep
  | inserts => none
  | connects => some .inserts
  | removes => some .connects
  | disconnects => some .removes

/-- No link has made a step without the one before it. -/
def InOrder (history : List LinkEvent) : Prop :=
  ∀ ⦃id link step earlier⦄, ⟨id, link, step⟩ ∈ history → step.before? = some earlier →
    ⟨id, link, earlier⟩ ∈ history

/-- Steps stay in order if the step before the new one was made. -/
theorem InOrder.concat
    {history : List LinkEvent}
    (inOrder : InOrder history)
    {id : ConnectionId}
    {link : LinkId}
    {step : LinkStep}
    (isNext : ∀ earlier, step.before? = some earlier → ⟨id, link, earlier⟩ ∈ history) :
    InOrder (history ++ [⟨id, link, step⟩]) := by
  intro other otherLink otherStep earlier member isEarlier
  rcases List.mem_append.mp member with wasMade | isNew
  · exact List.mem_append_left _ (inOrder wasMade isEarlier)
  · cases List.mem_singleton.mp isNew
    exact List.mem_append_left _ (isNext earlier isEarlier)

/-- The last change of the writers that concerns a name was a removal, or the last report about
it was that of an end. -/
def Traffic.IsUndone
    (traffic : Traffic)
    (id : ConnectionId) : Prop :=
  lastOf? id [.inserts, .removes] traffic.history = some .removes ∨
    lastOf? id [.connects, .disconnects] traffic.history = some .disconnects

/-! ## What the tables tell of the links -/

/-- The writers show what was done to them last. A link that writes is open, or about to be. -/
structure ShowsWrites
    (transport : Transport)
    (history : List LinkEvent) : Prop where
  writer?_iff : ∀ id, (transport.writer? id).isSome = true ↔
    lastOf? id [.inserts, .removes] history = some .inserts
  isWriting : ∀ ⦃id link⦄, transport.writer? id = some link →
    ⟨id, link, .inserts⟩ ∈ history ∧ ⟨id, link, .removes⟩ ∉ history

/-- The bridge shows what was last reported to it. A connection goes on because a link has begun
that has not ended. -/
structure ShowsReports
    (bridge : Bridge)
    (history : List LinkEvent) : Prop where
  sound : bridge.Sound
  isConnected_iff : ∀ id, bridge.isConnected id = true ↔
    lastOf? id [.connects, .disconnects] history = some .connects
  goesOn : ∀ ⦃id⦄, bridge.isConnected id = true →
    ∃ link, ⟨id, link, .connects⟩ ∈ history ∧ ⟨id, link, .disconnects⟩ ∉ history

namespace ShowsWrites

variable {transport : Transport} {history : List LinkEvent} {id : ConnectionId} {link : LinkId}

/-- The writers show what was done to them when one is inserted. -/
theorem insert
    (shows : ShowsWrites transport history)
    (isNew : ∀ id step, ⟨id, link, step⟩ ∉ history) :
    ShowsWrites (transport.insertWriter id link) (history ++ [⟨id, link, .inserts⟩]) where
  writer?_iff other := by
    rw [writer?_insertWriter, lastOf?_concat]
    by_cases same : other = id
    · simp [same]
    · rw [if_neg same, if_neg fun both => same both.1.symm]
      exact shows.writer?_iff other
  isWriting other otherLink isWriter := by
    rw [writer?_insertWriter] at isWriter
    by_cases same : other = id
    · rw [if_pos same, Option.some.injEq] at isWriter
      subst same isWriter
      simp [isNew]
    · rw [if_neg same] at isWriter
      simp [shows.isWriting isWriter]

/-- The writers show what was done to them when one is removed. -/
theorem remove
    (shows : ShowsWrites transport history) :
    ShowsWrites (transport.removeWriter id) (history ++ [⟨id, link, .removes⟩]) where
  writer?_iff other := by
    rw [writer?_removeWriter, lastOf?_concat]
    by_cases same : other = id
    · simp [same]
    · rw [if_neg same, if_neg fun both => same both.1.symm]
      exact shows.writer?_iff other
  isWriting other otherLink isWriter := by
    rw [writer?_removeWriter] at isWriter
    by_cases same : other = id
    · rw [if_pos same] at isWriter
      cases isWriter
    · rw [if_neg same] at isWriter
      simp [shows.isWriting isWriter, same]

/-- A report leaves the writers as they are. -/
theorem report
    (shows : ShowsWrites transport history)
    (bridge : Bridge)
    {step : LinkStep}
    (isReport : step ∉ [.inserts, .removes]) :
    ShowsWrites { transport with bridge := bridge } (history ++ [⟨id, link, step⟩]) where
  writer?_iff other := by
    rw [lastOf?_concat, if_neg fun both => isReport both.2]
    exact shows.writer?_iff other
  isWriting other otherLink isWriter := by
    have wrote := shows.isWriting isWriter
    refine ⟨List.mem_append_left _ wrote.1, ?_⟩
    rw [List.mem_append, List.mem_singleton]
    rintro (hasRemoved | same)
    · exact wrote.2 hasRemoved
    · cases same
      exact isReport (by simp)

end ShowsWrites

namespace ShowsReports

variable {bridge : Bridge} {history : List LinkEvent} {id : ConnectionId} {link : LinkId}

/-- The bridge shows what was reported to it when a connection begins. -/
theorem connect
    (shows : ShowsReports bridge history)
    (notEnded : ⟨id, link, .disconnects⟩ ∉ history) :
    ShowsReports (bridge.onConnected id) (history ++ [⟨id, link, .connects⟩]) where
  sound := shows.sound.onBridge (.connect id)
  isConnected_iff other := by
    rw [shows.sound.isConnected_onConnected, lastOf?_concat]
    by_cases same : other = id
    · simp [same]
    · rw [if_neg same, if_neg fun both => same both.1.symm]
      exact shows.isConnected_iff other
  goesOn other connected := by
    rw [shows.sound.isConnected_onConnected] at connected
    by_cases same : other = id
    · subst same
      exact ⟨link, by simp, by simp [notEnded]⟩
    · rw [if_neg same] at connected
      obtain ⟨otherLink, hasBegun, notOver⟩ := shows.goesOn connected
      exact ⟨otherLink, List.mem_append_left _ hasBegun, by simp [notOver]⟩

/-- The bridge shows what was reported to it when a connection ends. -/
theorem disconnect
    (shows : ShowsReports bridge history) :
    ShowsReports (bridge.onDisconnected id) (history ++ [⟨id, link, .disconnects⟩]) where
  sound := shows.sound.onBridge (.disconnect id)
  isConnected_iff other := by
    rw [shows.sound.isConnected_onDisconnected, lastOf?_concat]
    by_cases same : other = id
    · simp [same]
    · rw [if_neg same, if_neg fun both => same both.1.symm]
      exact shows.isConnected_iff other
  goesOn other connected := by
    rw [shows.sound.isConnected_onDisconnected] at connected
    by_cases same : other = id
    · rw [if_pos same] at connected
      cases connected
    · rw [if_neg same] at connected
      obtain ⟨otherLink, hasBegun, notOver⟩ := shows.goesOn connected
      exact ⟨otherLink, List.mem_append_left _ hasBegun, by simp [notOver, same]⟩

/-- A change of the writers leaves the bridge as it is. -/
theorem write
    (shows : ShowsReports bridge history)
    {step : LinkStep}
    (isWrite : step ∉ [.connects, .disconnects]) :
    ShowsReports bridge (history ++ [⟨id, link, step⟩]) where
  sound := shows.sound
  isConnected_iff other := by
    rw [lastOf?_concat, if_neg fun both => isWrite both.2]
    exact shows.isConnected_iff other
  goesOn other connected := by
    obtain ⟨otherLink, hasBegun, notOver⟩ := shows.goesOn connected
    refine ⟨otherLink, List.mem_append_left _ hasBegun, ?_⟩
    rw [List.mem_append, List.mem_singleton]
    rintro (hasEnded | same)
    · exact notOver hasEnded
    · cases same
      exact isWrite (by simp)

/-- The bridge is served, or hears something that neither begins nor ends a connection. -/
theorem keep
    (shows : ShowsReports bridge history)
    {next : Bridge}
    (sound : next.Sound)
    (same : ∀ id, next.isConnected id = bridge.isConnected id) :
    ShowsReports next history where
  sound := sound
  isConnected_iff id := (same id).symm ▸ shows.isConnected_iff id
  goesOn id connected := shows.goesOn ((same id).symm.trans connected)

end ShowsReports

namespace Traffic

/-- What holds of the tables whatever the links have done. -/
structure Kept (traffic : Traffic) : Prop where
  inOrder : InOrder traffic.history
  writes : ShowsWrites traffic.transport traffic.history
  reports : ShowsReports traffic.transport.bridge traffic.history

/-- At the beginning nothing was done, and nothing is shown. -/
theorem kept_new (config : TransportConfig) : (new config).Kept where
  inOrder _ _ _ _ member := nomatch member
  writes :=
    { writer?_iff := fun _ => by simp [new, Transport.new, writer?, lastOf?]
      isWriting := fun _ _ isWriter => nomatch isWriter }
  reports :=
    { sound := Bridge.sound_new config.maxFrameLength
      isConnected_iff := fun id => by
        have notConnected : (Bridge.new config.maxFrameLength).isConnected id = false := rfl
        simp [new, Transport.new, notConnected, lastOf?]
      goesOn := fun _ connected => nomatch connected }

/-- Every step keeps what holds of the tables. -/
theorem Step.kept
    {traffic next : Traffic}
    (step : Step traffic next)
    (kept : traffic.Kept) :
    next.Kept := by
  obtain ⟨inOrder, writes, reports⟩ := kept
  cases step with
  | inserts isNew =>
      exact ⟨inOrder.concat (by rintro _ ⟨⟩), writes.insert isNew, reports.write (by decide)⟩
  | connects wasInserted isFirst =>
      refine ⟨inOrder.concat ?_, writes.report _ (by decide), reports.connect ?_⟩
      · rintro _ ⟨⟩
        exact wasInserted
      · exact fun hasEnded => isFirst (inOrder (inOrder hasEnded rfl) rfl)
  | @reads id link isOpen piece =>
      exact ⟨inOrder, { writes with }, reports.keep (reports.sound.onBridge (.receive id piece))
        (Bridge.isConnected_onBytesReceived _ id piece)⟩
  | removes isOpen =>
      refine ⟨inOrder.concat ?_, writes.remove, reports.write (by decide)⟩
      rintro _ ⟨⟩
      exact isOpen.1
  | disconnects wasRemoved isFirst =>
      refine ⟨inOrder.concat ?_, writes.report _ (by decide), reports.disconnect⟩
      rintro _ ⟨⟩
      exact wasRemoved
  | serves serves =>
      exact ⟨inOrder, { writes with }, reports.keep (serves.sound reports.sound)
        serves.isConnected_eq⟩

/-- What holds of the tables holds as long as links come and go. -/
theorem Reached.kept
    {config : TransportConfig}
    {traffic : Traffic}
    (reached : Reached config traffic) :
    traffic.Kept := by
  induction reached with
  | refl => exact kept_new config
  | tail _ step inductionHypothesis => exact step.kept inductionHypothesis

/-! ## What the functions of a transport take in steps -/

section Functions

variable {config : TransportConfig} {traffic : Traffic} {id : ConnectionId} {link : LinkId}

/-- A link that opens at once makes the two steps of opening. -/
theorem Reached.openLink
    (reached : Reached config traffic)
    (isNew : ∀ id step, ⟨id, link, step⟩ ∉ traffic.history) :
    Reached config ⟨traffic.transport.openLink id link,
      traffic.history ++ [⟨id, link, .inserts⟩, ⟨id, link, .connects⟩]⟩ := by
  have wasInserted : ⟨id, link, .inserts⟩ ∈ traffic.history ++ [⟨id, link, .inserts⟩] := by simp
  have isFirst : ⟨id, link, .connects⟩ ∉ traffic.history ++ [⟨id, link, .inserts⟩] := by
    simp [isNew]
  have opened := (reached.tail (.inserts isNew)).tail (.connects wasInserted isFirst)
  rwa [List.append_assoc] at opened

/-- A link that reads all that has arrived reads it piece by piece. -/
theorem Reached.readAll
    (reached : Reached config traffic)
    (isOpen : traffic.IsOpen id link)
    (bytes : Bytes) :
    Reached config ⟨traffic.transport.readAll id bytes, traffic.history⟩ := by
  rw [Transport.readAll]
  generalize pieces (traffic.transport.bufferSize - 1) bytes = unread
  induction unread generalizing traffic with
  | nil => exact reached
  | cons piece unread inductionHypothesis =>
      exact inductionHypothesis (reached.tail (.reads isOpen piece)) isOpen

/-- A link that ends at once makes the two steps of ending. -/
theorem Reached.endLink
    (reached : Reached config traffic)
    (isOpen : traffic.IsOpen id link) :
    Reached config ⟨traffic.transport.endLink id,
      traffic.history ++ [⟨id, link, .removes⟩, ⟨id, link, .disconnects⟩]⟩ := by
  have notOver : ⟨id, link, .disconnects⟩ ∉ traffic.history :=
    fun isOver => isOpen.2 (reached.kept.inOrder isOver rfl)
  have wasRemoved : ⟨id, link, .removes⟩ ∈ traffic.history ++ [⟨id, link, .removes⟩] := by simp
  have isFirst : ⟨id, link, .disconnects⟩ ∉ traffic.history ++ [⟨id, link, .removes⟩] := by
    simp [notOver]
  have ended := (reached.tail (.removes isOpen)).tail (.disconnects wasRemoved isFirst)
  rwa [List.append_assoc] at ended

end Functions

end Traffic

/-! ## Links that do not overlap -/

/-- A link opens only after all earlier ones of its name have ended. -/
def AreApart (history : List LinkEvent) : Prop :=
  ∀ before after id link, history = before ++ ⟨id, link, .inserts⟩ :: after →
    ∀ other, ⟨id, other, .inserts⟩ ∈ before → ⟨id, other, .disconnects⟩ ∈ before

theorem areApart_nil : AreApart [] := by
  intro before after id link split
  simp at split

/-- Links that are apart were apart before. -/
theorem AreApart.init
    {history more : List LinkEvent}
    (areApart : AreApart (history ++ more)) :
    AreApart history := by
  rintro before after id link rfl
  exact areApart before (after ++ more) id link (by simp)

/-- Links stay apart if a link opens only when those of its name have ended. -/
theorem AreApart.concat
    {history : List LinkEvent}
    (areApart : AreApart history)
    {id : ConnectionId}
    {link : LinkId}
    {step : LinkStep}
    (isApart : step = .inserts → ∀ other, ⟨id, other, .inserts⟩ ∈ history →
      ⟨id, other, .disconnects⟩ ∈ history) :
    AreApart (history ++ [⟨id, link, step⟩]) := by
  intro before after otherId otherLink split
  rcases List.eq_nil_or_concat' after with rfl | ⟨after, last, rfl⟩
  · obtain ⟨rfl, same⟩ := List.append_inj' split rfl
    cases same
    exact isApart rfl
  · rw [← List.cons_append, ← List.append_assoc] at split
    exact areApart _ _ _ _ (List.append_inj' split rfl).1

/-- Of the links of one name, at most one has not ended. -/
def AtMostOne (history : List LinkEvent) : Prop :=
  ∀ ⦃id link other⦄,
    ⟨id, link, .inserts⟩ ∈ history → ⟨id, link, .disconnects⟩ ∉ history →
    ⟨id, other, .inserts⟩ ∈ history → ⟨id, other, .disconnects⟩ ∉ history → link = other

/-- There is still at most one link of a name that goes on, as long as links are apart. -/
theorem AtMostOne.concat
    {history : List LinkEvent}
    (atMostOne : AtMostOne history)
    {event : LinkEvent}
    (areApart : AreApart (history ++ [event])) :
    AtMostOne (history ++ [event]) := by
  have hasEnded : ∀ {id link other}, event = ⟨id, link, .inserts⟩ →
      ⟨id, other, .inserts⟩ ∈ history → ⟨id, other, .disconnects⟩ ∈ history := by
    rintro id link other rfl wasInserted
    exact areApart history [] id link rfl other wasInserted
  intro id link other isFirst firstGoesOn isSecond secondGoesOn
  rw [List.mem_append, not_or] at firstGoesOn secondGoesOn
  rcases List.mem_append.mp isFirst with isFirst | isFirst
  · rcases List.mem_append.mp isSecond with isSecond | isSecond
    · exact atMostOne isFirst firstGoesOn.1 isSecond secondGoesOn.1
    · exact absurd (hasEnded (List.mem_singleton.mp isSecond).symm isFirst) firstGoesOn.1
  · rcases List.mem_append.mp isSecond with isSecond | isSecond
    · exact absurd (hasEnded (List.mem_singleton.mp isFirst).symm isSecond) secondGoesOn.1
    · have same := (List.mem_singleton.mp isFirst).trans (List.mem_singleton.mp isSecond).symm
      exact congrArg LinkEvent.link same

/-- What a link has done is shown until the link itself undoes it. -/
def IsShown
    (first last : LinkStep)
    (history : List LinkEvent) : Prop :=
  ∀ ⦃id link⦄, ⟨id, link, first⟩ ∈ history → ⟨id, link, last⟩ ∉ history →
    lastOf? id [first, last] history = some first

/-- What a link has done is still shown if no other one undoes it. -/
theorem IsShown.concat
    {first last : LinkStep}
    {history : List LinkEvent}
    (isShown : IsShown first last history)
    {event : LinkEvent}
    (isOnly : event.step = last → ∀ link, ⟨event.id, link, first⟩ ∈ history →
      ⟨event.id, link, last⟩ ∉ history → link = event.link) :
    IsShown first last (history ++ [event]) := by
  intro id link hasBegun notEnded
  rw [List.mem_append, List.mem_singleton] at hasBegun
  rw [List.mem_append, List.mem_singleton, not_or] at notEnded
  rw [lastOf?_concat]
  by_cases isFirst : event.id = id ∧ event.step = first
  · rw [if_pos ⟨isFirst.1, isFirst.2 ▸ List.mem_cons_self⟩, isFirst.2]
  · have hadBegun : ⟨id, link, first⟩ ∈ history := by
      refine hasBegun.resolve_right ?_
      rintro rfl
      exact isFirst ⟨rfl, rfl⟩
    rw [if_neg]
    · exact isShown hadBegun notEnded.1
    · rintro ⟨rfl, isOne⟩
      rw [List.mem_cons, List.mem_singleton] at isOne
      have isLast := isOne.resolve_left fun isStep => isFirst ⟨rfl, isStep⟩
      have isLink := isOnly isLast link hadBegun notEnded.1
      exact notEnded.2 (by rw [isLink, ← isLast])

/-- Links of one name do not overlap, so that each undoes only what it has done itself. -/
structure IsSingle (history : List LinkEvent) : Prop where
  atMostOne : AtMostOne history
  writes : IsShown .inserts .removes history
  reports : IsShown .connects .disconnects history

namespace Traffic

/-- While links are apart, a step undoes only what its own link has done. -/
theorem Step.isSingle
    {traffic next : Traffic}
    (step : Step traffic next)
    (inOrder : InOrder traffic.history)
    (isSingle : IsSingle traffic.history)
    (areApart : AreApart next.history) :
    IsSingle next.history := by
  obtain ⟨atMostOne, writes, reports⟩ := isSingle
  cases step with
  | inserts | connects =>
      exact ⟨atMostOne.concat areApart, writes.concat (by rintro ⟨⟩), reports.concat (by rintro ⟨⟩)⟩
  | reads | serves => exact ⟨atMostOne, writes, reports⟩
  | @removes id link isOpen =>
      -- The writer that is removed is the link's own, since no other link of the name goes on.
      refine ⟨atMostOne.concat areApart, writes.concat ?_, reports.concat (by rintro ⟨⟩)⟩
      intro _ other wasInserted notRemoved
      exact atMostOne wasInserted (fun hasEnded => notRemoved (inOrder hasEnded rfl))
        (inOrder isOpen.1 rfl) (fun hasEnded => isOpen.2 (inOrder hasEnded rfl))
  | @disconnects id link wasRemoved isFirst =>
      refine ⟨atMostOne.concat areApart, writes.concat (by rintro ⟨⟩), reports.concat ?_⟩
      intro _ other hasBegun notEnded
      exact atMostOne (inOrder hasBegun rfl) notEnded (inOrder (inOrder wasRemoved rfl) rfl) isFirst

/-- While links are apart, each has undone only what it has done itself. -/
theorem Reached.isSingle
    {config : TransportConfig}
    {traffic : Traffic}
    (reached : Reached config traffic)
    (areApart : AreApart traffic.history) :
    IsSingle traffic.history := by
  induction reached with
  | refl =>
      refine ⟨?_, ?_, ?_⟩
      · exact fun _ _ _ member => nomatch member
      · exact fun _ _ member => nomatch member
      · exact fun _ _ member => nomatch member
  | @tail middle last reached step inductionHypothesis =>
      have wereApart : AreApart middle.history := by
        cases step with
        | reads | serves => exact areApart
        | inserts | connects | removes | disconnects => exact areApart.init
      exact step.isSingle (Reached.kept reached).inOrder (inductionHypothesis wereApart) areApart

/-! ## When the tables agree -/

/-- At rest, a peer with a writer has an open link. -/
theorem AtRest.exists_isOpen_of_writer
    {traffic : Traffic}
    (atRest : traffic.AtRest)
    (kept : traffic.Kept)
    {id : ConnectionId}
    (hasWriter : (traffic.transport.writer? id).isSome = true) :
    ∃ link, traffic.IsOpen id link := by
  obtain ⟨link, isWriter⟩ := Option.isSome_iff_exists.mp hasWriter
  obtain ⟨wasInserted, notRemoved⟩ := kept.writes.isWriting isWriter
  exact ⟨link, (atRest id link).1 wasInserted, notRemoved⟩

/-- At rest, a peer that is connected has an open link. -/
theorem AtRest.exists_isOpen_of_isConnected
    {traffic : Traffic}
    (atRest : traffic.AtRest)
    (kept : traffic.Kept)
    {id : ConnectionId}
    (connected : traffic.transport.bridge.isConnected id = true) :
    ∃ link, traffic.IsOpen id link := by
  obtain ⟨link, hasBegun, notEnded⟩ := kept.reports.goesOn connected
  exact ⟨link, hasBegun, fun hasRemoved => notEnded ((atRest id link).2 hasRemoved)⟩

/-- Between two steps of its links, a transport has a writer for a peer, and its bridge reports
the peer as connected, only if a link of that name is open. While one is, both tables show it
unless an older link of the name has undone it: it has removed the newer one's writer, or
reported the newer one's end. This never happens if a link opens only after all earlier ones of
its name have ended. -/
theorem tables_agree_iff
    {config : TransportConfig}
    {traffic : Traffic}
    (reached : Reached config traffic)
    (atRest : traffic.AtRest) :
    (∀ id, traffic.AgreesOn id ↔
      ((∃ link, traffic.IsOpen id link) → ¬ traffic.IsUndone id)) ∧
    (AreApart traffic.history → ∀ id, traffic.AgreesOn id) := by
  have kept := reached.kept
  have agrees_iff : ∀ id, traffic.AgreesOn id ↔ ((∃ link, traffic.IsOpen id link) →
      (traffic.transport.writer? id).isSome = true ∧
        traffic.transport.bridge.isConnected id = true) := by
    intro id
    have ofWriter : (traffic.transport.writer? id).isSome = true → ∃ link, traffic.IsOpen id link :=
      atRest.exists_isOpen_of_writer kept
    have ofConnected : traffic.transport.bridge.isConnected id = true →
        ∃ link, traffic.IsOpen id link :=
      atRest.exists_isOpen_of_isConnected kept
    rw [AgreesOn]
    tauto
  refine ⟨fun id => (agrees_iff id).trans (imp_congr_right ?_), fun areApart id => ?_⟩
  · rintro ⟨link, hasBegun, -⟩
    rw [kept.writes.writer?_iff, kept.reports.isConnected_iff, IsUndone, not_or]
    have isWrite := lastOf?_of_mem (kept.inOrder hasBegun rfl) .removes
    have isReport := lastOf?_of_mem hasBegun .disconnects
    refine and_congr ?_ ?_
    · rcases isWrite with isLast | isLast <;> simp [isLast]
    · rcases isReport with isLast | isLast <;> simp [isLast]
  · rw [agrees_iff]
    rintro ⟨link, hasBegun, notRemoved⟩
    have isSingle := reached.isSingle areApart
    exact ⟨(kept.writes.writer?_iff id).mpr
        (isSingle.writes (kept.inOrder hasBegun rfl) notRemoved),
      (kept.reports.isConnected_iff id).mpr (isSingle.reports hasBegun fun hasEnded =>
        notRemoved (kept.inOrder hasEnded rfl))⟩

/-! ## Links that come and go -/

/-- A link opens without another coming between its steps. -/
theorem Reached.opens
    {config : TransportConfig}
    {traffic : Traffic}
    (reached : Reached config traffic)
    (id : ConnectionId)
    (link : LinkId)
    (isNew : ∀ id step, ⟨id, link, step⟩ ∉ traffic.history) :
    Reached config ⟨traffic.transport.openLink id link,
      traffic.history ++ [⟨id, link, .inserts⟩] ++ [⟨id, link, .connects⟩]⟩ :=
  (reached.tail (.inserts isNew)).tail (.connects (by simp) (by simp [isNew]))

/-- A link ends without another coming between its steps. -/
theorem Reached.ends
    {config : TransportConfig}
    {traffic : Traffic}
    (reached : Reached config traffic)
    (id : ConnectionId)
    (link : LinkId)
    (isOpen : traffic.IsOpen id link) :
    Reached config ⟨traffic.transport.endLink id,
      traffic.history ++ [⟨id, link, .removes⟩] ++ [⟨id, link, .disconnects⟩]⟩ := by
  have notEnded : ⟨id, link, .disconnects⟩ ∉ traffic.history :=
    fun hasEnded => isOpen.2 (reached.kept.inOrder hasEnded rfl)
  exact (reached.tail (.removes isOpen)).tail (.disconnects (by simp) (by simp [notEnded]))

/-- A link has opened. -/
def oneLink : Traffic where
  transport := (Transport.new narrowConfig).openLink ⟨"peer"⟩ 0
  history := [⟨⟨"peer"⟩, 0, .inserts⟩, ⟨⟨"peer"⟩, 0, .connects⟩]

theorem reached_oneLink : Reached narrowConfig oneLink := by
  have isNew : Reached narrowConfig (new narrowConfig) := .refl
  exact isNew.opens ⟨"peer"⟩ 0 (by simp [new])

/-- After the link has ended, another one of its name opens. -/
def reopened : Traffic where
  transport := (oneLink.transport.endLink ⟨"peer"⟩).openLink ⟨"peer"⟩ 1
  history := oneLink.history ++ [⟨⟨"peer"⟩, 0, .removes⟩] ++ [⟨⟨"peer"⟩, 0, .disconnects⟩] ++
    [⟨⟨"peer"⟩, 1, .inserts⟩] ++ [⟨⟨"peer"⟩, 1, .connects⟩]

theorem reached_reopened : Reached narrowConfig reopened :=
  (reached_oneLink.ends ⟨"peer"⟩ 0 (by simp [IsOpen, oneLink])).opens ⟨"peer"⟩ 1
    (by simp [oneLink])

theorem areApart_reopened : AreApart reopened.history := by
  have opened : AreApart oneLink.history :=
    (areApart_nil.concat (by simp)).concat (by simp)
  refine AreApart.concat (.concat (.concat (.concat opened ?_) ?_) ?_) ?_ <;> simp [oneLink]

/-- A peer whose second link opens after the first one has ended is known to both tables. -/
theorem reopened_agrees :
    reopened.AtRest ∧ AreApart reopened.history ∧
      (∀ id, reopened.AgreesOn id ↔
        ((∃ link, reopened.IsOpen id link) → ¬ reopened.IsUndone id)) ∧
      ∀ id, reopened.AgreesOn id := by
  have atRest : reopened.AtRest := by
    intro id link
    simp [reopened, oneLink]
  have agree := tables_agree_iff reached_reopened atRest
  exact ⟨atRest, areApart_reopened, agree.1, agree.2 areApart_reopened⟩

/-- While the link goes on, another one of its name opens; then the older one ends. -/
def overtaken : Traffic where
  transport := (oneLink.transport.openLink ⟨"peer"⟩ 1).endLink ⟨"peer"⟩
  history := oneLink.history ++ [⟨⟨"peer"⟩, 1, .inserts⟩] ++ [⟨⟨"peer"⟩, 1, .connects⟩] ++
    [⟨⟨"peer"⟩, 0, .removes⟩] ++ [⟨⟨"peer"⟩, 0, .disconnects⟩]

theorem reached_overtaken : Reached narrowConfig overtaken :=
  (reached_oneLink.opens ⟨"peer"⟩ 1 (by simp [oneLink])).ends ⟨"peer"⟩ 0
    (by simp [IsOpen, oneLink])

/-- Another link of its name opens between the two steps in which the link ends. -/
def interrupted : Traffic where
  transport := ((oneLink.transport.removeWriter ⟨"peer"⟩).openLink ⟨"peer"⟩ 1).reportDisconnected
    ⟨"peer"⟩
  history := oneLink.history ++ [⟨⟨"peer"⟩, 0, .removes⟩] ++ [⟨⟨"peer"⟩, 1, .inserts⟩] ++
    [⟨⟨"peer"⟩, 1, .connects⟩] ++ [⟨⟨"peer"⟩, 0, .disconnects⟩]

theorem reached_interrupted : Reached narrowConfig interrupted := by
  have removed := reached_oneLink.tail (.removes (by simp [IsOpen, oneLink]) :
    Step _ ⟨_, _ ++ [⟨⟨"peer"⟩, 0, .removes⟩]⟩)
  have opened := Reached.opens removed ⟨"peer"⟩ 1 (by simp [oneLink])
  exact opened.tail (.disconnects (by simp) (by simp [oneLink]))

/-- In both cases the newer link is open. In the first one it has lost its writer, and in the
second one it has not; in neither is its peer reported as connected. -/
theorem not_agreesOn_of_overlap :
    (Reached narrowConfig overtaken ∧ overtaken.AtRest ∧ overtaken.IsOpen ⟨"peer"⟩ 1 ∧
      (overtaken.transport.writer? ⟨"peer"⟩).isSome = false ∧
      ¬ overtaken.AgreesOn ⟨"peer"⟩) ∧
    Reached narrowConfig interrupted ∧ interrupted.AtRest ∧ interrupted.IsOpen ⟨"peer"⟩ 1 ∧
      (interrupted.transport.writer? ⟨"peer"⟩).isSome = true ∧
      ¬ interrupted.AgreesOn ⟨"peer"⟩ := by
  have isOpenOvertaken : overtaken.IsOpen ⟨"peer"⟩ 1 := by simp [IsOpen, overtaken, oneLink]
  have isOpenInterrupted : interrupted.IsOpen ⟨"peer"⟩ 1 := by
    simp [IsOpen, interrupted, oneLink]
  refine ⟨⟨reached_overtaken, ?_, isOpenOvertaken, by decide +kernel, ?_⟩,
    reached_interrupted, ?_, isOpenInterrupted, by decide +kernel, ?_⟩
  · intro id link
    simp [overtaken, oneLink]
  · intro agrees
    have connected := agrees.2.mpr ⟨1, isOpenOvertaken⟩
    revert connected
    decide +kernel
  · intro id link
    simp [interrupted, oneLink]
  · intro agrees
    have connected := agrees.2.mpr ⟨1, isOpenInterrupted⟩
    revert connected
    decide +kernel

end Traffic

end Transport
end ScriptHost
