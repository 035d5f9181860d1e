import Fctf.Lib.Custody
import Fctf.Worker

/-!
# The Deployment Queue and its Worker

`DeploymentConsumerService` buffers what the broker delivers, and `Worker.ProcessAsync`
takes batches out of the buffer. Every delivery has a tag, and the broker waits for one
acknowledgement, positive or negative, that names it.

A delivery is any text: `Body` says what decoding makes of it, and the worker decodes what
it finds inside once more. Deliveries and their tags are those of one channel. A channel may
be closed; what is acknowledged then is dropped, and the next batch opens a new one.
-/

open Concurrent RedisDb

namespace Fctf

/-! ### Deliveries -/

/-- `DeploymentQueuePayload.Data`, as the worker decodes it. -/
inductive PayloadData where
  | undecodable
  | null
  | request (req : ChallengeStartStopReqDTO)
  deriving DecidableEq, Repr

/-- `DeploymentQueuePayload`. -/
structure DeploymentQueuePayload where
  /-- The request. -/
  data : PayloadData
  /-- When it is too old. -/
  expiry : ℤ
  deriving DecidableEq, Repr

/-- The text of a delivery, as it is decoded. -/
inductive Body where
  | undecodable
  | decoded (payload : Option DeploymentQueuePayload)
  deriving DecidableEq, Repr

/-- A message in the buffer. Nothing makes sure that it has a payload. -/
structure BufferedMessage where
  /-- The delivery tag. -/
  deliveryTag : ℕ
  /-- The payload. -/
  payload : Option DeploymentQueuePayload
  deriving DecidableEq, Repr

/-- What the broker is told of a delivery. -/
inductive Settlement where
  | ack (deliveryTag : ℕ)
  | nack (deliveryTag : ℕ)
  deriving DecidableEq, Repr

/-- The delivery it is about. -/
def Settlement.tag : Settlement → ℕ
  | ack tag | nack tag => tag

/-- Is a payload too old at time `now`? A missing one is not. -/
def isExpired (payload : Option DeploymentQueuePayload) (now : ℤ) : Bool :=
  payload.any (·.expiry < now)

/-! ### The shared state -/

/-- The shared state. -/
structure QueueWorld where
  /-- Redis and the tables. -/
  deploy : World
  /-- What was delivered on the channel; the tag of a delivery is its place. -/
  deliveries : List Body
  /-- `_messageBuffer`. -/
  buffer : List BufferedMessage
  /-- Is the channel open? -/
  channelOpen : Bool
  /-- What the broker was told on the channel. -/
  settlements : List Settlement

/-- The broker is told something, unless the channel is closed. -/
def QueueWorld.settle (x : Settlement) (w : QueueWorld) : QueueWorld :=
  if w.channelOpen then { w with settlements := w.settlements ++ [x] } else w

/-- `EnsureConsumerAsync`: a closed channel is replaced. -/
def QueueWorld.ensureConsumer (w : QueueWorld) : QueueWorld :=
  if w.channelOpen then w
  else { w with deliveries := [], channelOpen := true, settlements := [] }

/-! ### Operations -/

/-- The operations of the buffer and the channel. -/
inductive BufferOp where
  | ensureConsumer
  | deliver (body : Body)
  | basicAck (deliveryTag : ℕ)
  | write (message : BufferedMessage)
  | tryRead

/-- The type of an operation's reply. -/
def BufferOp.Reply : BufferOp → Type
  | ensureConsumer => Unit
  | deliver _ => ℕ
  | basicAck _ => Unit
  | write _ => Unit
  | tryRead => Option BufferedMessage

/-- The interface of the queue: the operations of the deployment services, and those of the
buffer. -/
def queueI : Interface := deployI.plus ⟨BufferOp, BufferOp.Reply⟩

/-- An operation of the buffer as a program. -/
def queue (o : BufferOp) : Prog queueI Exn o.Reply :=
  Prog.perform (I := queueI) (.inr o)

/-- A program of the deployment services. -/
def deploying {α : Type} (p : Prog deployI Exn α) : Prog queueI Exn α := p.onFirst

/-- An operation of the deployment services under the state of the queue. `AckAsync` and
`NackAsync` look whether the channel is open. -/
def execDeploy (e : DeployEnv) : (o : DeployOp) → QueueWorld → Except Exn o.Reply × QueueWorld
  | .ack tag, w => e.fault.apply e.exn (fun w => (.ok (), w.settle (.ack tag))) w
  | .nack tag, w => e.fault.apply e.exn (fun w => (.ok (), w.settle (.nack tag))) w
  | o, w => ((o.exec e w.deploy).1, { w with deploy := (o.exec e w.deploy).2 })

/-- An operation of the buffer. `BasicAckAsync` raises on a closed channel. -/
def BufferOp.exec (e : DeployEnv) : (o : BufferOp) → QueueWorld → Except Exn o.Reply × QueueWorld
  | ensureConsumer, w => e.fault.apply e.exn (fun w => (.ok (), w.ensureConsumer)) w
  | deliver body, w =>
      (.ok w.deliveries.length, { w with deliveries := w.deliveries ++ [body] })
  | basicAck tag, w =>
      e.fault.apply e.exn (fun w =>
        if w.channelOpen then (.ok (), w.settle (.ack tag)) else (.error .invalidOperation, w)) w
  | write message, w => (.ok (), { w with buffer := w.buffer ++ [message] })
  | tryRead, w => (.ok w.buffer.head?, { w with buffer := w.buffer.tail })

/-- What one operation answers and does. -/
def queueExec (e : DeployEnv) : (o : queueI.Op) → QueueWorld →
    Except Exn (queueI.Reply o) × QueueWorld
  | .inl o, w => execDeploy e o w
  | .inr o, w => o.exec e w

/-! ### Programs -/

/-- Is a payload too old? A missing one is not looked at. -/
def checkExpired (payload : Option DeploymentQueuePayload) : Prog queueI Exn Bool := do
  match payload with
  | none => pure false
  | some payload =>
      let now : ℤ ← deploying utcNow
      pure (decide (payload.expiry < now))

/-- The `try` block of `OnMessageReceivedAsync`. -/
def bufferDelivery (deliveryTag : ℕ) (body : Body) : Prog queueI Exn Unit := do
  match body with
  | .undecodable => throw .argument
  | .decoded payload =>
      if ← checkExpired payload then queue (.basicAck deliveryTag)
      else queue (.write ⟨deliveryTag, payload⟩)

/-- `OnMessageReceivedAsync`. -/
def onMessageReceived (body : Body) : Prog queueI Exn Unit := do
  let deliveryTag : ℕ ← queue (.deliver body)
  try bufferDelivery deliveryTag body
  catch _ => deploying (issue (.nack deliveryTag))

/-- The loop of `DequeueAvailableBatchAsync`, which reads at most `moreReads` messages. -/
def readBatch (count : ℕ) : ℕ → List BufferedMessage → Prog queueI Exn (List BufferedMessage)
  | 0, batch => pure batch
  | moreReads + 1, batch =>
      if batch.length < count then do
        let msg : Option BufferedMessage ← queue .tryRead
        match msg with
        | none => pure batch
        | some msg =>
            if ← checkExpired msg.payload then
              deploying (issue (.ack msg.deliveryTag))
              readBatch count moreReads batch
            else readBatch count moreReads (batch ++ [msg])
      else pure batch

/-- `DequeueAvailableBatchAsync`. -/
def dequeueAvailableBatch (count moreReads : ℕ) : Prog queueI Exn (List BufferedMessage) := do
  queue .ensureConsumer
  readBatch count moreReads []

/-- The body of the worker's loop over a batch. What comes before its `try` block raises to
the loop. -/
def excute (cfg : DeployConfig) (mess : BufferedMessage) : Prog queueI Exn Unit :=
  match mess.payload with
  | none => throw .argument
  | some payload =>
      match payload.data with
      | .undecodable => throw .argument
      | .null => pure ()
      | .request req =>
          deploying (processMessage cfg ⟨mess.deliveryTag, req, payload.expiry⟩)

/-- `Worker.ProcessAsync`. -/
def processAsync (cfg : DeployConfig) (moreReads : ℕ) : Prog queueI Exn Unit := do
  let runningWorkflow : ℕ ← deploying (issue .countRunningWorkflows)
  if cfg.maxRunningWorkflow ≤ runningWorkflow then pure ()
  else
    let availableSlots := cfg.maxRunningWorkflow - runningWorkflow
    let messages ← dequeueAvailableBatch (min availableSlots cfg.batchSize) moreReads
    forM messages (excute cfg)

/-! ### The service -/

/-- What happens at the queue. -/
inductive QueueCall where
  | receive (body : Body)
  | process (moreReads : ℕ)

/-- What the surroundings do. -/
inductive QueueMove where
  | tick (seconds : ℕ)
  | close
  | cache (strings : Store ChallengeDeploymentCacheDTO) (zsets : Store (SortedSet ℤ))
  | tables (tables : Tables)

/-- What a move of the surroundings does. -/
def QueueMove.apply : QueueMove → QueueWorld → QueueWorld
  | tick d, w => { w with deploy := { w.deploy with redis := w.deploy.redis.tick d } }
  | close, w => { w with channelOpen := false }
  | cache strings zsets, w =>
      { w with
        deploy := { w.deploy with
          redis := { w.deploy.redis with strings := strings, zsets := zsets } } }
  | tables t, w => { w with deploy := { w.deploy with tables := t } }

/-- The service. -/
def queueService (cfg : DeployConfig) : Service queueI Exn Unit QueueWorld where
  Call := QueueCall
  Env := DeployEnv
  Ext := QueueMove
  program
    | .receive body => onMessageReceived body
    | .process moreReads => processAsync cfg moreReads
  exec e o w := queueExec e o w
  ambient m w := m.apply w

end Fctf
