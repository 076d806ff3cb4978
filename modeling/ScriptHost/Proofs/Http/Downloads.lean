import ScriptHost.Host
import ScriptHost.Proofs.Board
import ScriptHost.Proofs.FileSystem.Requests

/-!
# Downloads

A download opens its file as soon as a success is told, and from then on the file holds what has
come of the body. So it is all or nothing as long as the body comes to its end, or never begins;
if the body breaks off, the download fails and the file keeps what came before.
-/

namespace ScriptHost

namespace FileSystem

variable {system : FileSystem} {path : String} {place : Location}

/-! ## Files that are written on -/

/-- A file that has been written can be written again. -/
theorem writable_put
    (content : Bytes)
    (isWritable : system.writable path = .ok place) :
    (system.put place (.file content)).writable path = .ok place := by
  obtain ⟨directory, name, slash, rfl, walks, -⟩ := exists_walk_of_writable isWritable
  obtain ⟨_, _, -, -, nodeGrows⟩ := exists_place_of_writable isWritable
  have grows := grows_put (nodeGrows content)
  rw [writable, grows.walk walks]
  simp only [bind, Except.bind, node?_put_self]
  rfl

theorem appendFile_put
    (content chunk : Bytes)
    (isWritable : system.writable path = .ok place) :
    (system.put place (.file content)).appendFile path chunk =
      .ok (system.put place (.file (content ++ chunk))) := by
  rw [appendFile, writable_put content isWritable]
  simp only [bind, Except.bind]
  rw [contentAt_of_file (fileAt_put_of_writable content isWritable).2, put_put]
  rfl

/-- What is put where it stands already changes nothing. -/
theorem node?_put_iff
    (isWritable : system.writable path = .ok place)
    (content : Bytes) :
    (∀ location, (system.put place (.file content)).node? location = system.node? location) ↔
      system.node? place = some (.file content) := by
  have isWritten := (fileAt_put_of_writable content isWritable).2
  constructor
  · intro stays
    rw [← stays place, isWritten]
  · intro stands location
    by_cases isPlace : location = place
    · rw [isPlace, isWritten, stands]
    · exact node?_put_of_ne isPlace

end FileSystem

open FileSystem

namespace Http

variable {files : FileSystem} {path : String} {place : Location} {problem : SystemError}
  {reply : Reply}

/-- Chunks that are written one after the other stand in the file one after the other. -/
theorem writeChunks_put
    (content : Bytes)
    (chunks : List Bytes)
    (isWritable : files.writable path = .ok place) :
    writeChunks path (files.put place (.file content)) chunks =
      (.ok (), files.put place (.file (content ++ chunks.flatten))) := by
  induction chunks generalizing content with
  | nil => rw [writeChunks, List.flatten_nil, List.append_nil]
  | cons chunk chunks inductionHypothesis =>
      rw [writeChunks, appendFile_put content chunk isWritable]
      dsimp only
      rw [inductionHypothesis, List.flatten_cons, List.append_assoc]

/-! ## What comes of a reply -/

namespace Reply

/-- The bytes of the body that have come. -/
def body : Reply → Bytes
  | .nothing => []
  | .response _ chunks _ => chunks.flatten

/-- A success is told. -/
def succeeds : Reply → Bool
  | .nothing => false
  | .response status _ _ => isSuccess status

/-- The body comes to its end. -/
def isWhole : Reply → Bool
  | .nothing => false
  | .response _ _ isWhole => isWhole

/-- A success is told, and its body comes to its end. -/
def isComplete (reply : Reply) : Bool :=
  reply.succeeds && reply.isWhole

/-- A success is told, and then its body breaks off. -/
def breaksOff (reply : Reply) : Bool :=
  reply.succeeds && !reply.isWhole

end Reply

/-- A download that is told no success fails before it opens its file. -/
theorem store_of_not_succeeds
    (files : FileSystem)
    (url path : String)
    (target : Url)
    (notSucceeds : reply.succeeds = false) :
    ∃ failure, store url target path files reply = (.error failure, files) := by
  cases reply with
  | nothing => exact ⟨_, rfl⟩
  | response status chunks isWhole =>
      refine ⟨.status url status, ?_⟩
      rw [store, if_pos (by simpa [Reply.succeeds] using notSucceeds)]

theorem store_of_not_writable
    (url : String)
    (target : Url)
    (reply : Reply)
    (notWritable : files.writable path = .error problem) :
    ∃ failure, store url target path files reply = (.error failure, files) := by
  cases succeeds : reply.succeeds with
  | false => exact store_of_not_succeeds files url path target succeeds
  | true =>
      cases reply with
      | nothing => cases succeeds
      | response status chunks isWhole =>
          have noFile : files.writeFile path [] = .error problem := by
            rw [writeFile, notWritable]
            rfl
          refine ⟨.write path problem, ?_⟩
          rw [store, if_neg (by simpa [Reply.succeeds] using succeeds), noFile]

/-- Once a success is told, the file holds what has come of the body, whether or not the body
comes to its end. -/
theorem store_of_succeeds
    (url : String)
    (target : Url)
    (succeeds : reply.succeeds = true)
    (isWritable : files.writable path = .ok place) :
    store url target path files reply =
      (if reply.isWhole then .ok reply.body.length else .error (.request url .cutShort),
        files.put place (.file reply.body)) := by
  cases reply with
  | nothing => cases succeeds
  | response status chunks isWhole =>
      have opens : files.writeFile path [] = .ok (files.put place (.file [])) := by
        rw [writeFile, isWritable]
        rfl
      rw [store, if_neg (by simpa [Reply.succeeds] using succeeds), opens]
      dsimp only
      rw [writeChunks_put [] chunks isWritable, List.nil_append]
      cases isWhole <;> rfl

end Http

namespace Host

open Http

variable {host : Host} {operation : OperationId} {path : String} {place : Location}
  {problem : SystemError}

/-- What a host does when a reply to a download has come: it stores the reply and settles the
operation. The first component is the count of bytes, or why the download fails. -/
def storeReply
    (host : Host)
    (operation : OperationId)
    (url : String)
    (target : Url)
    (path : String)
    (reply : Reply) : Except Failure Nat × Host :=
  let (result, files) := store url target path host.files reply
  (result, { host with files := files }.settle operation (downloadOutcome result))

/-- A download is all or nothing. If a success is told and its body comes to its end, then the
operation completes, the count is that of the body and the file holds the body. Otherwise the
operation fails and everything stands as it did. -/
structure IsAllOrNothing
    (reply : Reply)
    (operation : OperationId)
    (path : String)
    (before : Host)
    (came : Except Failure Nat × Host) : Prop where
  completes : reply.isComplete = true →
    came.2.board.outcome? operation = some (.ok .void) ∧ came.1 = .ok reply.body.length ∧
      came.2.files.readFile path = .ok reply.body
  fails : reply.isComplete = false →
    ((∃ reason, came.2.board.outcome? operation = some (.error (.failed reason))) ∧
      ∃ failure, came.1 = .error failure) ∧
    ∀ location, came.2.files.node? location = before.files.node? location

/-- The operation of a download is settled by what comes of the download. -/
theorem outcome?_storeReply
    (isPending : host.board.IsPending operation)
    (url : String)
    (target : Url)
    (path : String)
    (reply : Reply) :
    (host.storeReply operation url target path reply).2.board.outcome? operation =
      some (downloadOutcome (host.storeReply operation url target path reply).1) := by
  change (host.board.settle operation _).outcome? operation = _
  rw [Board.outcome?_settle, if_pos ⟨isPending, rfl⟩]
  rfl

theorem storeReply_of_failure
    {failure : Failure}
    {url : String}
    {target : Url}
    {reply : Reply}
    (isPending : host.board.IsPending operation)
    (fails : store url target path host.files reply = (.error failure, host.files)) :
    (host.storeReply operation url target path reply).1 = .error failure ∧
      (host.storeReply operation url target path reply).2.board.outcome? operation =
        some (.error (.failed failure.message)) ∧
      (host.storeReply operation url target path reply).2.files = host.files := by
  have isResult : (host.storeReply operation url target path reply).1 = .error failure :=
    congrArg Prod.fst fails
  refine ⟨isResult, ?_, congrArg Prod.snd fails⟩
  rw [outcome?_storeReply isPending, isResult]
  rfl

/-- A host that has a download to do asks for it and stores the reply, or cannot ask. -/
theorem perform_download
    (host : Host)
    (operation : OperationId)
    (url path : String) :
    host.perform (.download operation url path) =
      match Request.prepare ⟨"GET", url, [], none⟩ with
      | .error failure => host.settle operation (downloadOutcome (.error failure))
      | .ok message =>
          let (reply, web) := host.web.ask message
          ({ host with web := web }.storeReply operation url message.url path reply).2 := by
  rw [perform, download]
  cases Request.prepare ⟨"GET", url, [], none⟩ <;> rfl

theorem storeReply_of_succeeds
    {reply : Reply}
    (isPending : host.board.IsPending operation)
    (isWritable : host.files.writable path = .ok place)
    (succeeds : reply.succeeds = true)
    (url : String)
    (target : Url) :
    let came := host.storeReply operation url target path reply
    came.1 = (if reply.isWhole then .ok reply.body.length else .error (.request url .cutShort)) ∧
      came.2.board.outcome? operation = some (downloadOutcome came.1) ∧
      came.2.files = host.files.put place (.file reply.body) ∧
      came.2.files.readFile path = .ok reply.body := by
  have stores := store_of_succeeds url target succeeds isWritable
  have isStored : (host.storeReply operation url target path reply).2.files =
      host.files.put place (.file reply.body) := congrArg Prod.snd stores
  refine ⟨congrArg Prod.fst stores, outcome?_storeReply isPending .., isStored, ?_⟩
  obtain ⟨isAt, isWritten⟩ := fileAt_put_of_writable reply.body isWritable
  rw [isStored]
  exact readFile_eq_ok_iff.mpr ⟨place, isAt, isWritten⟩

/-- A download is all or nothing if and only if its body does not break off, or breaks off when
just what the file held before has come. -/
theorem isAllOrNothing_storeReply_iff
    (isPending : host.board.IsPending operation)
    (isWritable : host.files.writable path = .ok place)
    (url : String)
    (target : Url)
    (reply : Reply) :
    IsAllOrNothing reply operation path host
        (host.storeReply operation url target path reply) ↔
      (reply.breaksOff = true → host.files.node? place = some (.file reply.body)) := by
  cases succeeds : reply.succeeds with
  | false =>
      obtain ⟨failure, fails⟩ := store_of_not_succeeds host.files url path target succeeds
      obtain ⟨isResult, isOutcome, isSame⟩ := storeReply_of_failure isPending fails
      simp only [Reply.breaksOff, succeeds, Bool.false_and, Bool.false_eq_true, false_implies,
        iff_true]
      refine ⟨fun complete => ?_, fun _ => ⟨⟨⟨_, isOutcome⟩, _, isResult⟩, fun _ => by rw [isSame]⟩⟩
      rw [Reply.isComplete, succeeds] at complete
      cases complete
  | true =>
      obtain ⟨isResult, isOutcome, isStored, reads⟩ :=
        storeReply_of_succeeds isPending isWritable succeeds url target
      rw [isResult] at isOutcome
      cases isWhole : reply.isWhole with
      | true =>
          rw [isWhole, if_pos rfl] at isResult isOutcome
          simp only [Reply.breaksOff, isWhole, Bool.not_true, Bool.and_false, Bool.false_eq_true,
            false_implies, iff_true]
          refine ⟨fun _ => ⟨isOutcome, isResult, reads⟩, fun notComplete => ?_⟩
          rw [Reply.isComplete, succeeds, isWhole] at notComplete
          cases notComplete
      | false =>
          rw [isWhole, if_neg Bool.false_ne_true] at isResult isOutcome
          have notComplete : reply.isComplete = false := by
            rw [Reply.isComplete, isWhole, Bool.and_false]
          have breaksOff : reply.breaksOff = true := by
            rw [Reply.breaksOff, succeeds, isWhole]
            rfl
          rw [← node?_put_iff isWritable, ← isStored]
          refine ⟨fun whole _ => (whole.fails notComplete).2, fun stays => ?_⟩
          refine ⟨fun complete => ?_, fun _ => ⟨⟨⟨_, isOutcome⟩, _, isResult⟩, stays breaksOff⟩⟩
          rw [notComplete] at complete
          cases complete

/-- Where a file can be written, a download is all or nothing if and only if its body does not
break off, or breaks off when just what the file held before has come: the file keeps whatever came
of the body. Where none can be written, every download fails and leaves the files as they are. A
host that downloads a file stores the reply that it gets, or fails because it cannot ask. -/
theorem download_isAllOrNothing_iff
    (host : Host)
    (operation : OperationId)
    (isPending : host.board.IsPending operation)
    (url path : String) :
    (∀ place, host.files.writable path = .ok place → ∀ target reply,
      (IsAllOrNothing reply operation path host
          (host.storeReply operation url target path reply) ↔
        (reply.breaksOff = true → host.files.node? place = some (.file reply.body))) ∧
      (reply.breaksOff = true →
        (host.storeReply operation url target path reply).2.files.readFile path =
          .ok reply.body)) ∧
    (∀ problem, host.files.writable path = .error problem → ∀ target reply,
      (∃ reason, (host.storeReply operation url target path reply).2.board.outcome? operation =
        some (.error (.failed reason))) ∧
      (host.storeReply operation url target path reply).2.files = host.files) ∧
    (∀ message, Request.prepare ⟨"GET", url, [], none⟩ = .ok message →
      host.perform (.download operation url path) =
        ({ host with web := (host.web.ask message).2 }.storeReply operation url message.url path
          (host.web.ask message).1).2) ∧
    ∀ failure, Request.prepare ⟨"GET", url, [], none⟩ = .error failure →
      host.perform (.download operation url path) =
        host.settle operation (.error (.failed failure.message)) := by
  refine ⟨fun place isWritable target reply =>
      ⟨isAllOrNothing_storeReply_iff isPending isWritable url target reply, fun breaksOff => ?_⟩,
    fun problem notWritable target reply => ?_, fun message prepares => ?_,
    fun failure refuses => ?_⟩
  · rw [Reply.breaksOff, Bool.and_eq_true] at breaksOff
    exact (storeReply_of_succeeds isPending isWritable breaksOff.1 url target).2.2.2
  · obtain ⟨failure, fails⟩ := store_of_not_writable url target reply notWritable
    obtain ⟨-, isOutcome, isSame⟩ := storeReply_of_failure isPending fails
    exact ⟨⟨_, isOutcome⟩, isSame⟩
  · rw [perform_download, prepares]
  · rw [perform_download, refuses]
    rfl

/-- A host with an operation that is pending and a file that holds something. -/
def holdingFile : Host :=
  { start .default [] ⟨[(["file"], .file [111, 108, 100])], []⟩ with board := Board.empty.create.1 }

/-- The address of the root of a place. -/
def rootAddress : Url :=
  ⟨"http", "", some "place", none, "/", none, none⟩

/-- A body that comes to its end takes the place of what the file held. -/
theorem wholeBody_isAllOrNothing :
    let came := holdingFile.storeReply 0 "http://place/" rootAddress "file"
      (.response 200 [[110], [101, 119]] true)
    holdingFile.board.IsPending 0 ∧ holdingFile.files.writable "file" = .ok ["file"] ∧
      came.2.board.outcome? 0 = some (.ok .void) ∧ came.1 = .ok 3 ∧
      came.2.files.readFile "file" = .ok [110, 101, 119] := by
  have isPending : holdingFile.board.IsPending 0 := by decide
  have isWritable : holdingFile.files.writable "file" = .ok ["file"] := rfl
  have isAllOrNothing := ((download_isAllOrNothing_iff holdingFile 0 isPending "http://place/"
    "file").1 _ isWritable rootAddress (.response 200 [[110], [101, 119]] true)).1.mpr nofun
  exact ⟨isPending, isWritable, isAllOrNothing.completes rfl⟩

/-- If the body breaks off before anything of it has come, the download fails, and what the file
held is lost. -/
theorem not_isAllOrNothing_brokenBody :
    let came := holdingFile.storeReply 0 "http://place/" rootAddress "file"
      (.response 200 [] false)
    holdingFile.files.readFile "file" = .ok [111, 108, 100] ∧
      came.1 = .error (.request "http://place/" .cutShort) ∧
      came.2.files.readFile "file" = .ok [] ∧
      ¬IsAllOrNothing (.response 200 [] false) 0 "file" holdingFile came := by
  refine ⟨rfl, rfl, rfl, fun isAllOrNothing => ?_⟩
  have isSame := (isAllOrNothing.fails rfl).2 ["file"]
  cases isSame

end Host
end ScriptHost
