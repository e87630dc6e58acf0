import StoreCpp.EarliestMax
import StoreCpp.Events
import StoreCpp.GroupBy

/-!
# The latest event of every member

`getMaxEvent` groups events by the `id` of their data and folds each group to
the event with the largest sequence number, starting from a value with the
number -1.
-/

namespace StoreCpp

open EarliestMax

/-- `data.value("id", "")`; `none` when it throws. -/
def IEvent.dataId (e : IEvent) : Option Str :=
  e.data.valueString "id".toList []

/-- The start value of the fold; its numbers that are not assigned are what
the memory held. -/
def maxEventBase (version timestamp : Int64) : IEvent where
  seqId := -1
  id := []
  streamId := []
  type := []
  version := version
  data := .null
  timestamp := timestamp

def maxEvent (base : IEvent) (stream : List IEvent) : IEvent :=
  stream.foldl (fun m ev => if m.seqId < ev.seqId then ev else m) base

def getMaxEvent (base : IEvent) (events : List IEvent) :
    Option (List IEvent) :=
  (tryGroupBy IEvent.dataId events).map fun streams =>
    streams.map fun o => maxEvent base o.2

/-- The event has a number of its own, and its data is an object whose `id`
is a string or absent. -/
structure IEvent.Numbered (e : IEvent) : Prop where
  seqId : 0 ≤ e.seqId
  data : ∃ members, e.data = .object members ∧
    ∀ value, Json.lookup "id".toList members = some value →
      ∃ text, value = .string text

def IEvent.memberId (e : IEvent) : Str := e.dataId.getD []

def IEvent.number (e : IEvent) : ℤ := e.seqId.toInt

theorem IEvent.Numbered.dataId_eq {e : IEvent} (he : e.Numbered) :
    e.dataId = some e.memberId := by
  obtain ⟨members, hdata, hid⟩ := he.data
  unfold IEvent.memberId IEvent.dataId Json.valueString Json.valueWith
  rw [hdata]
  dsimp only
  cases hlookup : Json.lookup "id".toList members with
  | none => rfl
  | some value =>
      obtain ⟨text, rfl⟩ := hid value hlookup
      rfl

theorem IEvent.Numbered.number_lt {e : IEvent} (he : e.Numbered)
    (version timestamp : Int64) :
    (maxEventBase version timestamp).number < e.number := by
  have hseqId := Int64.le_iff_toInt_le.mp he.seqId
  have hbase : (maxEventBase version timestamp).number = -1 := rfl
  have hzero : (0 : Int64).toInt = 0 := rfl
  rw [hbase, IEvent.number]
  omega

theorem maxEvent_eq (base : IEvent) (stream : List IEvent) :
    maxEvent base stream = stream.foldl (choose IEvent.number) base := by
  unfold maxEvent choose IEvent.number
  simp only [Int64.lt_iff_toInt_lt]

theorem getMaxEvent_eq {base : IEvent} {events : List IEvent}
    (hevents : ∀ e ∈ events, e.Numbered) :
    getMaxEvent base events =
      some ((groupBy IEvent.memberId events).map fun o =>
        maxEvent base o.2) := by
  rw [getMaxEvent, tryGroupBy_eq fun e he => (hevents e he).dataId_eq]
  rfl

section Groups

variable {version timestamp : Int64} {xs ys : List IEvent}

def ofMember (id : Str) (events : List IEvent) : List IEvent :=
  withKey IEvent.memberId id events

theorem isEarliestMax_maxEvent {id : Str}
    (hxs : ∀ e ∈ xs, e.Numbered) (hne : ofMember id xs ≠ []) :
    IsEarliestMax IEvent.number (ofMember id xs)
      (maxEvent (maxEventBase version timestamp) (ofMember id xs)) := by
  rw [maxEvent_eq]
  apply isEarliestMax_of_base _ hne
  intro e he
  exact (hxs e (mem_withKey.mp he).1).number_lt version timestamp

theorem maxEvent_mem {id : Str} (hxs : ∀ e ∈ xs, e.Numbered)
    (hne : ofMember id xs ≠ []) :
    maxEvent (maxEventBase version timestamp) (ofMember id xs) ∈ xs ∧
      (maxEvent (maxEventBase version timestamp)
        (ofMember id xs)).memberId = id :=
  mem_withKey.mp (isEarliestMax_maxEvent hxs hne).mem

def maxEvents (base : IEvent) (events : List IEvent) : List IEvent :=
  (groupBy IEvent.memberId events).map fun o => maxEvent base o.2

theorem mem_maxEvents_iff (hxs : ∀ e ∈ xs, e.Numbered) {e : IEvent} :
    e ∈ maxEvents (maxEventBase version timestamp) xs ↔
      ofMember e.memberId xs ≠ [] ∧
        e = maxEvent (maxEventBase version timestamp)
          (ofMember e.memberId xs) := by
  unfold maxEvents
  constructor
  · intro he
    obtain ⟨⟨id, stream⟩, hgroup, hmax⟩ := List.mem_map.mp he
    obtain ⟨hstream, hne⟩ := mem_groupBy_iff.mp hgroup
    rw [hstream] at hne hmax
    have hid := (@maxEvent_mem version timestamp _ _ hxs hne).2
    have heq : e.memberId = id := by rw [← hmax]; exact hid
    rw [heq]
    exact ⟨hne, hmax.symm⟩
  · intro ⟨hne, heq⟩
    have hgroup := mem_groupBy_iff.mpr ⟨rfl, hne⟩
    exact List.mem_map.mpr ⟨_, hgroup, heq.symm⟩

theorem numbered_of_mem_maxEvents (hxs : ∀ e ∈ xs, e.Numbered) {e : IEvent}
    (he : e ∈ maxEvents (maxEventBase version timestamp) xs) :
    e.Numbered := by
  obtain ⟨hne, heq⟩ := (mem_maxEvents_iff hxs).mp he
  have hmem := (@maxEvent_mem version timestamp _ _ hxs hne).1
  rw [← heq] at hmem
  exact hxs e hmem

theorem maxEvents_ids (hxs : ∀ e ∈ xs, e.Numbered) :
    (maxEvents (maxEventBase version timestamp) xs).map IEvent.memberId =
      (groupBy IEvent.memberId xs).map Prod.fst := by
  unfold maxEvents
  rw [List.map_map]
  apply List.map_congr_left
  intro ⟨id, stream⟩ hgroup
  obtain ⟨hstream, hne⟩ := mem_groupBy_iff.mp hgroup
  rw [hstream] at hne ⊢
  exact (maxEvent_mem hxs hne).2

theorem maxEvents_sorted (hxs : ∀ e ∈ xs, e.Numbered) :
    (maxEvents (maxEventBase version timestamp) xs).Pairwise
      fun earlier later => earlier.memberId < later.memberId := by
  have hids := List.pairwise_map.mpr
    (wellGrouped_groupBy IEvent.memberId xs).sorted
  rw [← @maxEvents_ids version timestamp _ hxs] at hids
  exact List.pairwise_map.mp hids

theorem mem_maxEvents_ids (hxs : ∀ e ∈ xs, e.Numbered) {id : Str} :
    id ∈ (maxEvents (maxEventBase version timestamp) xs).map IEvent.memberId ↔
      id ∈ xs.map IEvent.memberId := by
  constructor
  · intro hid
    obtain ⟨e, he, rfl⟩ := List.mem_map.mp hid
    obtain ⟨hne, _⟩ := (mem_maxEvents_iff hxs).mp he
    obtain ⟨other, hother⟩ := List.exists_mem_of_ne_nil _ hne
    obtain ⟨hmem, heq⟩ := mem_withKey.mp hother
    exact List.mem_map.mpr ⟨other, hmem, heq⟩
  · intro hid
    obtain ⟨e, he, rfl⟩ := List.mem_map.mp hid
    have hne : ofMember e.memberId xs ≠ [] :=
      List.ne_nil_of_mem (mem_withKey.mpr ⟨he, rfl⟩)
    have hmax := (@maxEvent_mem version timestamp _ _ hxs hne).2
    apply List.mem_map.mpr
    refine ⟨_, (mem_maxEvents_iff hxs).mpr ⟨?_, ?_⟩, hmax⟩
    · rw [hmax]
      exact hne
    · rw [hmax]

theorem ofMember_maxEvents (hxs : ∀ e ∈ xs, e.Numbered) (id : Str) :
    ofMember id (maxEvents (maxEventBase version timestamp) xs) =
      if ofMember id xs = [] then []
      else [maxEvent (maxEventBase version timestamp) (ofMember id xs)] := by
  have hsorted : (ofMember id
      (maxEvents (maxEventBase version timestamp) xs)).Pairwise
        fun earlier later => earlier.memberId < later.memberId :=
    (maxEvents_sorted hxs).filter _
  have hmem : ∀ e, e ∈ ofMember id
      (maxEvents (maxEventBase version timestamp) xs) ↔
        ofMember id xs ≠ [] ∧
          e = maxEvent (maxEventBase version timestamp) (ofMember id xs) := by
    intro e
    rw [ofMember, mem_withKey, mem_maxEvents_iff hxs]
    constructor
    · intro ⟨hmax, hid⟩
      rw [hid] at hmax
      exact hmax
    · intro ⟨hne, heq⟩
      have hid := (@maxEvent_mem version timestamp _ _ hxs hne).2
      rw [← heq] at hid
      rw [hid]
      exact ⟨⟨hne, heq⟩, rfl⟩
  split_ifs with hnil
  · apply List.eq_nil_iff_forall_not_mem.mpr
    intro e he
    exact ((hmem e).mp he).1 hnil
  · have : Std.Irrefl fun earlier later : IEvent =>
        earlier.memberId < later.memberId := ⟨fun e => lt_irrefl e.memberId⟩
    apply List.Pairwise.eq_of_mem_iff hsorted (List.pairwise_singleton _ _)
    intro e
    rw [hmem e, List.mem_singleton]
    exact and_iff_right hnil

theorem maxEvent_eq_of_mem (hxs : ∀ e ∈ xs, e.Numbered)
    (version' timestamp' : Int64) {id : Str} (hne : ofMember id xs ≠ []) :
    maxEvent (maxEventBase version timestamp) (ofMember id xs) =
      maxEvent (maxEventBase version' timestamp') (ofMember id xs) := by
  cases hgroup : ofMember id xs with
  | nil => exact absurd hgroup hne
  | cons e rest =>
      have he : e.Numbered := by
        have hmem : e ∈ ofMember id xs := by
          rw [hgroup]
          exact List.mem_cons_self
        exact hxs e (mem_withKey.mp hmem).1
      rw [maxEvent_eq, maxEvent_eq, foldl_of_base (he.number_lt _ _),
        foldl_of_base (he.number_lt _ _)]

theorem maxEvents_eq_of_base (hxs : ∀ e ∈ xs, e.Numbered)
    (version' timestamp' : Int64) :
    maxEvents (maxEventBase version timestamp) xs =
      maxEvents (maxEventBase version' timestamp') xs := by
  apply List.map_congr_left
  intro ⟨id, stream⟩ hgroup
  obtain ⟨hstream, hne⟩ := mem_groupBy_iff.mp hgroup
  rw [hstream] at hne ⊢
  exact maxEvent_eq_of_mem hxs version' timestamp' hne

theorem maxEvent_singleton {e : IEvent} (he : e.Numbered) :
    maxEvent (maxEventBase version timestamp) [e] = e := by
  rw [maxEvent_eq, foldl_of_base (he.number_lt _ _)]
  rfl

theorem maxEvent_append {id : Str} (hxs : ∀ e ∈ xs, e.Numbered)
    (hys : ∀ e ∈ ys, e.Numbered) (hx : ofMember id xs ≠ [])
    (hy : ofMember id ys ≠ []) :
    maxEvent (maxEventBase version timestamp)
        (ofMember id xs ++ ofMember id ys) =
      maxEvent (maxEventBase version timestamp)
        [maxEvent (maxEventBase version timestamp) (ofMember id xs),
          maxEvent (maxEventBase version timestamp) (ofMember id ys)] := by
  have hlower : ∀ e ∈ ofMember id ys,
      (maxEventBase version timestamp).number < e.number :=
    fun e he => (hys e (mem_withKey.mp he).1).number_lt _ _
  have hfirst := hxs _ (@maxEvent_mem version timestamp _ _ hxs hx).1
  rw [maxEvent_eq, foldl_append_of_base hlower hy, ← maxEvent_eq,
    ← maxEvent_eq, maxEvent_eq _ [_, _], foldl_of_base (hfirst.number_lt _ _)]
  rfl

/-- The latest events of two lists, merged, are those of their concatenation. -/
theorem maxEvents_append (hxs : ∀ e ∈ xs, e.Numbered)
    (hys : ∀ e ∈ ys, e.Numbered) :
    maxEvents (maxEventBase version timestamp) (xs ++ ys) =
      maxEvents (maxEventBase version timestamp)
        (maxEvents (maxEventBase version timestamp) xs ++
          maxEvents (maxEventBase version timestamp) ys) := by
  have hmerged : ∀ id, withKey IEvent.memberId id
      (maxEvents (maxEventBase version timestamp) xs ++
        maxEvents (maxEventBase version timestamp) ys) =
      (if ofMember id xs = [] then []
        else [maxEvent (maxEventBase version timestamp) (ofMember id xs)]) ++
      (if ofMember id ys = [] then []
        else [maxEvent (maxEventBase version timestamp) (ofMember id ys)]) := by
    intro id
    rw [withKey_append]
    exact congrArg₂ _ (ofMember_maxEvents hxs id) (ofMember_maxEvents hys id)
  have hjoined : ∀ id, withKey IEvent.memberId id (xs ++ ys) =
      ofMember id xs ++ ofMember id ys :=
    fun id => withKey_append _ id _ _
  apply groupBy_map_eq
  · intro id
    rw [hmerged id, hjoined id]
    by_cases hx : ofMember id xs = [] <;>
      by_cases hy : ofMember id ys = [] <;> simp [hx, hy]
  · intro id hne
    rw [hmerged id, hjoined id]
    rw [hjoined id] at hne
    by_cases hx : ofMember id xs = []
    · rw [hx, List.nil_append] at hne
      rw [if_pos hx, if_neg hne, hx, List.nil_append, List.nil_append,
        maxEvent_singleton (hys _ (maxEvent_mem hys hne).1)]
    · by_cases hy : ofMember id ys = []
      · rw [if_neg hx, if_pos hy, hy, List.append_nil, List.append_nil,
          maxEvent_singleton (hxs _ (maxEvent_mem hxs hx).1)]
      · rw [if_neg hx, if_neg hy]
        exact maxEvent_append hxs hys hx hy

end Groups

/-- The first event of the list that has the largest number of its member. -/
def IEvent.IsLatestOf (e : IEvent) (events : List IEvent) : Prop :=
  IsEarliestMax IEvent.number (ofMember e.memberId events) e

theorem isLatestOf_of_mem_maxEvents {version timestamp : Int64}
    {xs : List IEvent} (hxs : ∀ e ∈ xs, e.Numbered) {e : IEvent}
    (he : e ∈ maxEvents (maxEventBase version timestamp) xs) :
    e.IsLatestOf xs := by
  obtain ⟨hne, heq⟩ := (mem_maxEvents_iff hxs).mp he
  have hmax := @isEarliestMax_maxEvent version timestamp _ _ hxs hne
  rw [← heq] at hmax
  exact hmax

/-- One event for each member of the list, in the order of their ids. -/
structure AreLatest (latest events : List IEvent) : Prop where
  sorted : (latest.map IEvent.memberId).Pairwise (· < ·)
  members : ∀ id, id ∈ latest.map IEvent.memberId ↔
    id ∈ events.map IEvent.memberId
  latest : ∀ e ∈ latest, e.IsLatestOf events

/-- The result is complete and can be computed in parts, whatever the memory
of each call held. -/
theorem getMaxEvent_latest (xs ys : List IEvent)
    (hxs : ∀ e ∈ xs, e.Numbered) (hys : ∀ e ∈ ys, e.Numbered)
    (held heldXs heldYs heldParts : Int64 × Int64) :
    ∃ latestXs latestYs latest,
      getMaxEvent (maxEventBase heldXs.1 heldXs.2) xs = some latestXs ∧
      AreLatest latestXs xs ∧
      getMaxEvent (maxEventBase heldYs.1 heldYs.2) ys = some latestYs ∧
      getMaxEvent (maxEventBase heldParts.1 heldParts.2)
        (latestXs ++ latestYs) = some latest ∧
      getMaxEvent (maxEventBase held.1 held.2) (xs ++ ys) = some latest := by
  have hboth : ∀ e ∈ xs ++ ys, e.Numbered := by
    intro e he
    rcases List.mem_append.mp he with he | he
    · exact hxs e he
    · exact hys e he
  have hparts : ∀ e ∈ maxEvents (maxEventBase heldXs.1 heldXs.2) xs ++
      maxEvents (maxEventBase heldYs.1 heldYs.2) ys, e.Numbered := by
    intro e he
    rcases List.mem_append.mp he with he | he
    · exact numbered_of_mem_maxEvents hxs he
    · exact numbered_of_mem_maxEvents hys he
  have hlatest : AreLatest (maxEvents (maxEventBase heldXs.1 heldXs.2) xs)
      xs := by
    constructor
    · exact List.pairwise_map.mpr (maxEvents_sorted hxs)
    · intro id
      exact mem_maxEvents_ids hxs
    · intro e he
      exact isLatestOf_of_mem_maxEvents hxs he
  have hmerged : maxEvents (maxEventBase held.1 held.2) (xs ++ ys) =
      maxEvents (maxEventBase heldParts.1 heldParts.2)
        (maxEvents (maxEventBase heldXs.1 heldXs.2) xs ++
          maxEvents (maxEventBase heldYs.1 heldYs.2) ys) := by
    rw [maxEvents_eq_of_base hboth heldParts.1 heldParts.2,
      maxEvents_append hxs hys,
      maxEvents_eq_of_base hxs heldXs.1 heldXs.2,
      maxEvents_eq_of_base hys heldYs.1 heldYs.2]
  refine ⟨_, _, _, getMaxEvent_eq hxs, hlatest, getMaxEvent_eq hys,
    getMaxEvent_eq hparts, ?_⟩
  rw [getMaxEvent_eq hboth]
  exact congrArg some hmerged

/-- An event of the list of the test, whose other fields are not set. -/
def namedEvent (seqId : Int64) (name : Str) : IEvent where
  seqId := seqId
  id := []
  streamId := []
  type := []
  version := 0
  data := .object [("id".toList, .string name)]
  timestamp := 0

theorem namedEvent_numbered {seqId : Int64} (hseqId : 0 ≤ seqId)
    (name : Str) : (namedEvent seqId name).Numbered := by
  constructor
  · exact hseqId
  · refine ⟨_, rfl, ?_⟩
    intro value hvalue
    exact ⟨name, (Option.some.inj hvalue).symm⟩

theorem getMaxEvent_twoTypes :
    ∃ latestXs latestYs latest,
      getMaxEvent (maxEventBase 0 0)
        [namedEvent 0 "Type B".toList, namedEvent 3 "Type A".toList] =
          some latestXs ∧
      AreLatest latestXs
        [namedEvent 0 "Type B".toList, namedEvent 3 "Type A".toList] ∧
      getMaxEvent (maxEventBase 0 0) [namedEvent 9 "Type B".toList] =
        some latestYs ∧
      getMaxEvent (maxEventBase 0 0) (latestXs ++ latestYs) = some latest ∧
      getMaxEvent (maxEventBase 0 0)
        ([namedEvent 0 "Type B".toList, namedEvent 3 "Type A".toList] ++
          [namedEvent 9 "Type B".toList]) = some latest := by
  apply getMaxEvent_latest _ _ _ _ (0, 0) (0, 0) (0, 0) (0, 0)
  · intro e he
    rcases List.mem_cons.mp he with rfl | he
    · exact namedEvent_numbered (by decide) _
    · rw [List.mem_singleton.mp he]
      exact namedEvent_numbered (by decide) _
  · intro e he
    rw [List.mem_singleton.mp he]
    exact namedEvent_numbered (by decide) _

end StoreCpp
