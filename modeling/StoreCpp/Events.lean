import StoreCpp.JsonValue

/-!
# Events, event streams and their JSON form

The records of the event store and the conversions between them and JSON.
Each decoder reads a member through a typed default, and the type of the
default literal, not the type of the field, decides the conversion.
-/

namespace StoreCpp

structure IEvent where
  seqId : Int64
  id : Str
  streamId : Str
  type : Str
  version : Int64
  data : Json
  timestamp : Int64

structure IEventStream where
  id : Str
  type : Str
  version : Int64
  timestamp : Int64
  snapshot : Json
  snapshotVersion : Int64

def IEvent.toJson (p : IEvent) : Json :=
  Json.ofMembers [
    ("seqId".toList, .integer p.seqId),
    ("id".toList, .string p.id),
    ("streamId".toList, .string p.streamId),
    ("type".toList, .string p.type),
    ("version".toList, .integer p.version),
    ("data".toList, p.data),
    ("timestamp".toList, .integer p.timestamp)]

/-- `from_json` for an event; `none` when a conversion throws. -/
def IEvent.fromJson (j : Json) : Option IEvent := do
  let seqId ← j.valueInt "seqId".toList 0
  let id ← j.valueString "id".toList []
  let streamId ← j.valueString "streamId".toList []
  let type ← j.valueString "type".toList []
  let version ← j.valueInt "version".toList 0
  let data ← j.valueJson "data".toList .null
  let timestamp ← j.valueInt "timestamp".toList 0
  return {
    seqId := seqId.toInt64
    id, streamId, type
    version := version.toInt64
    data
    timestamp := timestamp.toInt64 }

def IEventStream.toJson (p : IEventStream) : Json :=
  Json.ofMembers [
    ("id".toList, .string p.id),
    ("type".toList, .string p.type),
    ("version".toList, .integer p.version),
    ("timestamp".toList, .integer p.timestamp),
    ("snapshot".toList, p.snapshot),
    ("snapshotVersion".toList, .integer p.snapshotVersion)]

/-- A string assigned from an `int` holds the one character it converts to. -/
def stringOfInt (value : Int32) : Str :=
  [Char.ofNat value.toInt8.toUInt8.toNat]

/-- `from_json` for a stream.  The default of `id` is the literal `0`, so the
member is converted to `int` before it is assigned to the string. -/
def IEventStream.fromJson (j : Json) : Option IEventStream := do
  let id ← j.valueInt "id".toList 0
  let type ← j.valueString "type".toList []
  let version ← j.valueInt "version".toList 0
  let timestamp ← j.valueInt "timestamp".toList 0
  let snapshot ← j.valueJson "snapshot".toList .null
  let snapshotVersion ← j.valueInt "snapshotVersion".toList 0
  return {
    id := stringOfInt id
    type
    version := version.toInt64
    timestamp := timestamp.toInt64
    snapshot
    snapshotVersion := snapshotVersion.toInt64 }

/-- The value survives a conversion to `int`. -/
def FitsInt (value : Int64) : Prop :=
  Int32.minValue.toInt ≤ value.toInt ∧ value.toInt ≤ Int32.maxValue.toInt

theorem toInt64_toInt32_eq_self_iff (value : Int64) :
    value.toInt32.toInt64 = value ↔ FitsInt value := by
  have hmin : Int32.minValue.toInt = -2 ^ 31 := by decide
  have hmax : Int32.maxValue.toInt = 2 ^ 31 - 1 := by decide
  unfold FitsInt
  rw [hmin, hmax, ← Int64.toInt_inj, Int32.toInt_toInt64,
    Int64.toInt_toInt32, Int.bmod_def]
  omega

theorem IEvent.fromJson_toJson (p : IEvent) :
    IEvent.fromJson p.toJson = some {
      p with
      seqId := p.seqId.toInt32.toInt64
      version := p.version.toInt32.toInt64
      timestamp := p.timestamp.toInt32.toInt64 } := rfl

theorem IEventStream.fromJson_toJson (p : IEventStream) :
    IEventStream.fromJson p.toJson = none := rfl

/-- Decoding an encoded event gives it back exactly when its three numbers
fit an `int`; decoding an encoded stream always throws. -/
theorem eventJson_roundTrip_iff (e : IEvent) (s : IEventStream) :
    (IEvent.fromJson e.toJson = some e ↔
      FitsInt e.seqId ∧ FitsInt e.version ∧ FitsInt e.timestamp) ∧
    IEventStream.fromJson s.toJson ≠ some s := by
  constructor
  · rw [IEvent.fromJson_toJson, Option.some.injEq]
    simp only [← toInt64_toInt32_eq_self_iff]
    constructor
    · intro heq
      exact ⟨congrArg IEvent.seqId heq, congrArg IEvent.version heq,
        congrArg IEvent.timestamp heq⟩
    · rintro ⟨hseqId, hversion, htimestamp⟩
      rw [hseqId, hversion, htimestamp]
  · rw [IEventStream.fromJson_toJson]
    exact Option.some_ne_none s |>.symm

/-- A millisecond timestamp does not survive, nor does any stream. -/
theorem eventJson_roundTrip_fails :
    ¬ ((∀ e : IEvent, IEvent.fromJson e.toJson = some e) ∧
      ∀ s : IEventStream, IEventStream.fromJson s.toJson = some s) := by
  rintro ⟨hevent, _⟩
  have heq := hevent {
    seqId := 1, id := "0f0d26e6-2a5e-4ac0-94c5-3d8b9e9a6c11".toList
    streamId := "06606420-0bc4-4661-8f4a-9a04ef7caea1".toList
    type := "DROID".toList, version := 1, data := .null
    timestamp := 1614043464973 }
  rw [IEvent.fromJson_toJson, Option.some.injEq] at heq
  exact absurd (congrArg IEvent.timestamp heq) (by decide)

end StoreCpp
