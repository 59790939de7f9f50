import RecordStore.Lifetime
import RecordStore.Payload

/-! # Expiry events

What a listener is told when an entry is evicted: the entity or its payload, the type, and the lifetime that the
entry was stored with. A listener may break on an event. -/

namespace RecordStore

/-- What is left of an evicted entry. -/
inductive ExpiredValue
  | entity (e : Entity)
  | raw (payload : Bytes)
  deriving DecidableEq

structure Event where
  value : ExpiredValue
  typeName : String
  ttl : Lifetime
  deriving DecidableEq

structure Notice where
  payload : Bytes
  ttl : Lifetime
  deriving DecidableEq

/-- Who is told of evictions. -/
structure Listener where
  /-- Whether events carry the entity instead of its payload. -/
  wantsEntity : Bool
  /-- Whether the listener breaks on an event, given how many it was handed before. -/
  breaksOn : Nat → Event → Bool

/-- The event for an eviction. A payload that cannot be decoded goes out as it is. -/
def Notice.event (n : Notice) (typeName : String) (wantsEntity : Bool) : Event :=
  let value := if wantsEntity then
      match Payload.decode n.payload with
      | .ok e => .entity e
      | .error _ => .raw n.payload
    else .raw n.payload
  ⟨value, typeName, n.ttl⟩

end RecordStore
