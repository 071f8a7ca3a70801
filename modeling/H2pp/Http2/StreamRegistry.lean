import H2pp.Http2.Stream
import Mathlib.Logic.Function.Basic

/-! # The stream registry

`stream_registry.cpp`. Streams are shared by pointers, from the map of the open
streams and from the queue of those that want to send. A queue slot may have been
emptied. A round of `get_data` serves every stream of the queue once; streams that
want to send more are put into the queue of the next round.
-/

namespace H2pp.Http2

open Utils Hpack

/-- `stream_registry`, with the stream objects: a `stream::ptr` is a number, and those
below `size` have been created. -/
structure StreamRegistry where
  heap : Nat → Stream
  size : Nat
  streamMap : List (Nat × Nat)
  queue : List (Option Nat)

/-- The variables of `get_data`, and the objects it changes. -/
structure Round where
  heap : Nat → Stream
  encoder : Encoder
  bytesUsed : Nat
  nextQueue : List Nat

namespace StreamRegistry

/-- `stream_registry()`, with nothing in memory yet. -/
def create : StreamRegistry := ⟨fun _ => .create 0 0 0 ⟨[], [], 0⟩, 0, [], []⟩

/-- `add_stream(id, sptr)` for a new stream. An id that is in the map keeps its stream. -/
def addStream (registry : StreamRegistry) (id : Nat) (stream : Stream) : StreamRegistry where
  heap := Function.update registry.heap registry.size stream
  size := registry.size + 1
  streamMap :=
    if (registry.streamMap.lookup id).isSome then registry.streamMap
    else (id, registry.size) :: registry.streamMap
  queue := registry.queue ++ [some registry.size]

/-- `get_stream(id)`. -/
def getStream (registry : StreamRegistry) (id : Nat) : Option Nat := registry.streamMap.lookup id

/-- `enqueue(stream)`. -/
def enqueue (registry : StreamRegistry) (ptr : Nat) : StreamRegistry :=
  { registry with queue := registry.queue ++ [some ptr] }

/-- The search of `erase`, which empties the slot it finds. It asks every slot before
for its id. -/
def resetSlot (heap : Nat → Stream) (id : Nat) :
    List (Option Nat) → Except Failure (List (Option Nat))
  | [] => .ok []
  | none :: _ => .error .undefinedBehaviour
  | some ptr :: slots =>
      if (heap ptr).httpId = id then .ok (none :: slots)
      else do
        let slots ← resetSlot heap id slots
        .ok (some ptr :: slots)

/-- `erase(id)`. -/
def erase (registry : StreamRegistry) (id : Nat) : Except Failure StreamRegistry := do
  let queue ← resetSlot registry.heap id registry.queue
  .ok { registry with queue, streamMap := registry.streamMap.filter (·.1 ≠ id) }

/-- `PrivateClient::invoke_for_stream(stream_id, method, args)`, with what the stream
receives. -/
def invokeForStream (registry : StreamRegistry) (streamId : Nat) (received : Stream.Received) :
    Except Failure StreamRegistry :=
  match registry.getStream streamId with
  | none => .ok registry
  | some ptr =>
      let stream := (registry.heap ptr).receive received
      if stream.isFinished then
        { registry with heap := Function.update registry.heap ptr stream }.erase streamId
      else
        let checked := stream.checkTxData
        let registry := { registry with heap := Function.update registry.heap ptr checked.2 }
        .ok (if checked.1 then registry.enqueue ptr else registry)

/-- `invoke_for_stream`, if there is anything to give to a stream. -/
def deliver (registry : StreamRegistry) :
    Option (Nat × Stream.Received) → Except Failure StreamRegistry
  | none => .ok registry
  | some (streamId, received) => registry.invokeForStream streamId received

/-- The timer of a stream runs out. -/
def onTimeout (registry : StreamRegistry) (ptr : Nat) : StreamRegistry :=
  { registry with heap := Function.update registry.heap ptr (registry.heap ptr).onTimeout }

/-- `reset(ec)`. -/
def reset (registry : StreamRegistry) (ec : ErrorCode) : StreamRegistry :=
  { registry with
    heap := fun ptr =>
      if ptr ∈ registry.streamMap.map Prod.snd then (registry.heap ptr).reset ec
      else registry.heap ptr
    streamMap := []
    queue := [] }

/-- The turns of `get_data`: an empty slot and a stream without data are skipped.
Every frame is emitted with the stream it comes from. -/
def scheduler (lowerBound : LowerBound) (limit : Nat) :
    Machine Round (Option Nat) (Nat × OutFrame) Failure where
  step round slot :=
    match slot with
    | none => .ok (round, [])
    | some ptr =>
        if !(round.heap ptr).hasTxData then .ok (round, [])
        else do
          let turn ← (round.heap ptr).getTxData lowerBound round.encoder
            (sizeSub limit round.bytesUsed)
          let checked := turn.stream.checkTxData
          .ok (⟨Function.update round.heap ptr checked.2, turn.encoder,
              round.bytesUsed + turn.used,
              if checked.1 then round.nextQueue ++ [ptr] else round.nextQueue⟩,
            turn.out.map fun frame => (ptr, frame))

/-- `get_data(out, enc, limit)`: the registry, the encoder, the frames appended to
`out`, and the value returned. -/
def getData (lowerBound : LowerBound) (registry : StreamRegistry) (encoder : Encoder)
    (limit : Nat) : Except Failure (StreamRegistry × Encoder × List (Nat × OutFrame) × Nat) :=
  if limit < 16 then .ok (registry, encoder, [], 0)
  else do
    let final ← (scheduler lowerBound limit).run ⟨⟨registry.heap, encoder, 0, []⟩, []⟩
      registry.queue
    .ok ({ registry with heap := final.state.heap, queue := final.state.nextQueue.map some },
      final.state.encoder, final.emitted, final.state.bytesUsed)

/-- An empty slot in the way is the only way in which `erase` fails. -/
theorem resetSlot_failure {heap : Nat → Stream} {id : Nat} {slots : List (Option Nat)}
    {failure : Failure} (failed : resetSlot heap id slots = .error failure) :
    failure = .undefinedBehaviour := by
  induction slots with
  | nil => cases failed
  | cons slot slots ih =>
      cases slot with
      | none =>
          cases failed
          rfl
      | some ptr =>
          unfold resetSlot at failed
          split at failed
          · cases failed
          · cases rest : resetSlot heap id slots with
            | error other =>
                rw [rest] at failed
                cases failed
                exact ih rest
            | ok left =>
                rw [rest] at failed
                cases failed

/-- Calling a stream fails only where the behaviour is undefined. -/
theorem invokeForStream_failure {registry : StreamRegistry} {streamId : Nat}
    {received : Stream.Received} {failure : Failure}
    (failed : registry.invokeForStream streamId received = .error failure) :
    failure = .undefinedBehaviour := by
  unfold invokeForStream at failed
  split at failed
  · cases failed
  · simp only at failed
    split at failed
    · unfold erase at failed
      cases slots : resetSlot _ streamId registry.queue with
      | error other =>
          rw [slots] at failed
          cases failed
          exact resetSlot_failure slots
      | ok left =>
          rw [slots] at failed
          cases failed
    · cases failed

end StreamRegistry

end H2pp.Http2
