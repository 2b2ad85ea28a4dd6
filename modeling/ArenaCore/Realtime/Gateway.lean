import ArenaCore.Lib.OrderedMap
import ArenaCore.Store.Replay

/-!
# The Realtime Gateway

`ExecutionRealtime` for one connected socket, over the job store. The socket
has a handler for subscribe commands and is visited by a poller. Both are
asynchronous functions that share the map of cursors, so the model cuts each
of them at every `await`: what is written between two cuts is one step, and
between any two steps anything else may happen. A database transaction is a
step of its own, so writes can fall between the moment a replay is read and
the moment its caller goes on.

`commandBusy` is whether the handler is suspended and `client.polling` whether
the poller is. Cursors are objects. The map and a suspended poller hold
references to them, and a command that subscribes again puts a new object in
the place of the old one.

## Main definitions

* `Cursor`, `Client`: The state of one socket.
* `Command`, `Poll`: Where the handler and the poller are suspended.
* `Message`, `Item`: What the client is sent.
* `subscribeExecution`, `unsubscribeExecution`, `startPoll`, ...: The stretches
  of code between two cuts.
* `Gateway.step`: One step of the socket, the poller or the database.
* `Gateway.run`, `Gateway.sent`: Whole runs, and what was sent along the way.
-/

namespace ArenaCore

open JobStore

/-- How far a subscription has been served. -/
structure Cursor where
  executionId : String := ""
  attempt : Nat := 0
  afterSequence : Nat := 0
deriving DecidableEq

/-- The fields of a subscribe command. -/
structure SubscriptionInput where
  executionId : String
  attempt : Int
  afterSequence : Int
deriving DecidableEq

/-- An integer a number can hold exactly, not negative. -/
def isCount (n : Int) : Bool :=
  decide (0 ≤ n) && decide (n ≤ 9007199254740991)

/-- Accepts a uuid, in either case, and two counts. -/
def executionSubscriptionSchema (input : SubscriptionInput) : Option Cursor :=
  if isUuid input.executionId && isCount input.attempt && isCount input.afterSequence then
    some ⟨input.executionId, input.attempt.toNat, input.afterSequence.toNat⟩
  else none

inductive ReplyCode where
  | socketRateLimit
  | invalidRequest
  | subscriptionLimit
  | notFound
  | serviceUnavailable
deriving DecidableEq

/-- What is sent about one execution. -/
inductive Item where
  | acknowledged (result : Replay)
  | executionSync (snapshot : ExecutionSnapshot)
  | event (event : PublicExecutionEvent)
deriving DecidableEq

/-- A message to the client. An item is kept with the name its subscription
    has, which is not part of what is sent. -/
inductive Message where
  | refused (code : ReplyCode)
  | item (executionId : String) (item : Item)
deriving DecidableEq

/-- Where the handler of a command is suspended: at `client.polling`, with what
    came of it once it has settled, at the session, and at the replay before
    and after the database has answered. -/
inductive Command where
  | waiting (request : Cursor) (settled : Option (Except Error Unit))
  | resolving (request : Cursor)
  | replaying (request : Cursor)
  | replayed (request : Cursor) (result : Except Error Replay)

/-- Where a poll is suspended: at the session, and at the replay for a cursor,
    asked with the values the cursor had. The stamp is the iterator's. -/
inductive Poll where
  | resolving
  | replaying (cursor stamp : Nat) (asked : Cursor)
  | replayed (cursor stamp : Nat) (asked : Cursor) (result : Except Error Replay)

/-- The state of one socket. -/
structure Client where
  userId : Uuid
  connected : Bool := true
  /-- References into `cursors`, by execution. -/
  subscriptions : OrderedMap String Nat := {}
  cursors : Nat → Cursor := fun _ => {}
  allocated : Nat := 0
  /-- The suspended handler; `commandBusy` while there is one. -/
  command : Option Command := none
  /-- The suspended poll; `client.polling` while there is one. -/
  polling : Option Poll := none
  requests : Nat := 0
  window : Nat := 0

namespace Client

variable (c : Client)

def commandBusy : Bool := c.command.isSome

def disconnect : Client := { c with connected := false }

/-- A socket that is gone is sent nothing. -/
def send (messages : List Message) : List Message :=
  if c.connected then messages else []

/-! ### The subscribe handler -/

/-- Up to `await client.polling`. A poll that is not running has settled. -/
def subscribeExecution (now : Nat) (ack : Bool) (input : Option SubscriptionInput) :
    Client × List Message :=
  if ack = false then (c.disconnect, [])
  else
    let c := if 60000 ≤ now - c.window then { c with window := now, requests := 0 } else c
    let c := { c with requests := c.requests + 1 }
    if 60 < c.requests ∨ c.commandBusy = true then (c, c.send [.refused .socketRateLimit])
    else
      match input.bind executionSubscriptionSchema with
      | none => (c, c.send [.refused .invalidRequest])
      | some request =>
          if c.subscriptions.has request.executionId = false ∧ 5 ≤ c.subscriptions.size then
            (c, c.send [.refused .subscriptionLimit])
          else
            let settled := if c.polling.isSome then none else some (.ok ())
            ({ c with command := some (.waiting request settled) }, [])

/-- The `catch` and `finally` of the handler. -/
def failCommand (e : Error) : Client × List Message :=
  let code := match e with
    | .api .. => .notFound
    | _ => .serviceUnavailable
  ({ c with command := none }, c.send [.refused code])

/-- From `await client.polling` to the session. -/
def commandPolled : Client × List Message :=
  match c.command with
  | some (.waiting _ (some (.error e))) => c.failCommand e
  | some (.waiting request (some (.ok ()))) =>
      if c.connected = false then ({ c with command := none }, [])
      else ({ c with command := some (.resolving request) }, [])
  | _ => (c, [])

/-- From the session to the replay. -/
def commandResolved (principal : Except Error (Option Uuid)) : Client × List Message :=
  match c.command with
  | some (.resolving request) =>
      match principal with
      | .error e => c.failCommand e
      | .ok userId =>
          if userId ≠ some c.userId then ({ c.disconnect with command := none }, [])
          else ({ c with command := some (.replaying request) }, [])
  | _ => (c, [])

/-- The cursor a snapshot leaves behind. -/
def cursorOf (executionId : String) (snapshot : ExecutionSnapshot) : Cursor :=
  ⟨executionId, snapshot.attempt, snapshot.lastSequence⟩

/-- From the replay to the end: a new cursor object, and the acknowledgement. -/
def commandReplayed : Client × List Message :=
  match c.command with
  | some (.replayed _ (.error e)) => c.failCommand e
  | some (.replayed request (.ok result)) =>
      let c := { c with command := none }
      if c.connected = false then (c, [])
      else
        ({ c with
            subscriptions := c.subscriptions.set request.executionId c.allocated,
            cursors := Function.update c.cursors c.allocated
              (cursorOf request.executionId result.snapshot),
            allocated := c.allocated + 1 },
          [.item request.executionId (.acknowledged result)])
  | _ => (c, [])

def unsubscribeExecution (id : Option String) : Client :=
  match id with
  | none => c
  | some id => { c with subscriptions := c.subscriptions.delete id }

/-! ### The poller -/

/-- A poll settles. A command that waits for it learns how, and a failed one
    costs the client its connection. -/
def settlePoll (outcome : Except Error Unit) : Client :=
  let c := match outcome with
    | .error _ => c.disconnect
    | .ok () => c
  { c with
    polling := none,
    command := match c.command with
      | some (.waiting request none) => some (.waiting request (some outcome))
      | command => command }

/-- The next round of the loop over the cursors, up to its replay. -/
def nextCursor (seen : Nat) : Client :=
  match c.subscriptions.next? seen with
  | none => c.settlePoll (.ok ())
  | some entry =>
      { c with polling := some (.replaying entry.value entry.stamp (c.cursors entry.value)) }

/-- The poller reaches the client and asks for its session. -/
def startPoll : Client :=
  if c.connected = false ∨ c.commandBusy = true ∨ c.polling.isSome = true then c
  else { c with polling := some .resolving }

/-- From the session to the first replay. -/
def pollResolved (principal : Except Error (Option Uuid)) : Client :=
  match c.polling with
  | some .resolving =>
      match principal with
      | .error e => c.settlePoll (.error e)
      | .ok userId =>
          if userId ≠ some c.userId then c.disconnect.settlePoll (.ok ()) else c.nextCursor 0
  | _ => c

/-- What a poll sends for a replay. -/
def pollItems (result : Replay) : List Item :=
  if result.replayAvailable = false then [.executionSync result.snapshot]
  else result.events.map .event

/-- From a replay to the next: the messages, and the cursor object moved on. -/
def pollReplayed (writable : Bool) : Client × List Message :=
  match c.polling with
  | some (.replayed _ _ _ (.error e)) => (c.settlePoll (.error e), [])
  | some (.replayed cursor stamp asked (.ok result)) =>
      if c.connected = false then (c.settlePoll (.ok ()), [])
      else if writable = false then (c.disconnect.settlePoll (.ok ()), [])
      else
        let c := { c with
          cursors := Function.update c.cursors cursor
            (cursorOf (c.cursors cursor).executionId result.snapshot) }
        (c.nextCursor stamp, (pollItems result).map (.item asked.executionId))
  | _ => (c, [])

end Client

/-! ### The system -/

/-- The database and one socket. -/
structure Gateway where
  store : Store := {}
  client : Client

/-- One step. A database error in a replay is what it throws. -/
inductive Gateway.Input where
  | store (call : Call)
  | subscribe (now : Nat) (ack : Bool) (input : Option SubscriptionInput)
  | unsubscribe (id : Option String)
  | disconnect
  | commandPolled
  | commandResolved (principal : Except Error (Option Uuid))
  | commandReplay (app : Nat) (fault : Option Error)
  | commandReplayed
  | startPoll
  | pollResolved (principal : Except Error (Option Uuid))
  | pollReplay (app : Nat) (fault : Option Error)
  | pollReplayed (writable : Bool)

namespace Gateway

/-- A replay for the owner of the socket, or the error the database raises. -/
def answer (d : Deployment) (g : Gateway) (app : Nat) (fault : Option Error) (asked : Cursor) :
    Except Error Replay :=
  match fault with
  | some e => .error e
  | none =>
      replay d app g.client.userId asked.executionId asked.attempt asked.afterSequence g.store

def withClient (g : Gateway) : Client × List Message → Gateway × List Message
  | (c, messages) => ({ g with client := c }, messages)

/-- One step of the system, with what it sends. Commands of a socket that is
    gone do not arrive. -/
def step (d : Deployment) (g : Gateway) : Input → Gateway × List Message
  | .store call => ({ g with store := (ArenaCore.step d g.store call).1 }, [])
  | .subscribe now ack input =>
      if g.client.connected = false then (g, [])
      else g.withClient (g.client.subscribeExecution now ack input)
  | .unsubscribe id =>
      if g.client.connected = false then (g, [])
      else g.withClient (g.client.unsubscribeExecution id, [])
  | .disconnect => g.withClient (g.client.disconnect, [])
  | .commandPolled => g.withClient g.client.commandPolled
  | .commandResolved principal => g.withClient (g.client.commandResolved principal)
  | .commandReplay app fault =>
      match g.client.command with
      | some (.replaying request) =>
          let result := g.answer d app fault request
          ({ g with client := { g.client with command := some (.replayed request result) } }, [])
      | _ => (g, [])
  | .commandReplayed => g.withClient g.client.commandReplayed
  | .startPoll => g.withClient (g.client.startPoll, [])
  | .pollResolved principal => g.withClient (g.client.pollResolved principal, [])
  | .pollReplay app fault =>
      match g.client.polling with
      | some (.replaying cursor stamp asked) =>
          let result := g.answer d app fault asked
          ({ g with
              client := { g.client with polling := some (.replayed cursor stamp asked result) } },
            [])
      | _ => (g, [])
  | .pollReplayed writable => g.withClient (g.client.pollReplayed writable)

/-- A socket that has just connected. -/
def connected (userId : Uuid) (window : Nat) : Gateway where
  client := { userId := userId, window := window }

/-- The system after a list of steps. -/
def run (d : Deployment) (userId : Uuid) (window : Nat) (inputs : List Input) : Gateway :=
  Runs.run (step d) (connected userId window) inputs

/-- Everything the client was sent, in order. -/
def sent (d : Deployment) (userId : Uuid) (window : Nat) (inputs : List Input) : List Message :=
  (Runs.outputs (step d) (connected userId window) inputs).flatten

end Gateway

/-- What the client was sent under a name. -/
def received (executionId : String) (messages : List Message) : List Item :=
  messages.filterMap fun
    | .item name item => if name = executionId then some item else none
    | .refused _ => none

end ArenaCore
