import Mathlib.Data.List.Induction
import Mathlib.Data.Prod.Lex
import StoreCpp.GroupBy

/-!
# Grouping by several functions

`groupBy` takes any number of key functions and builds maps in maps, one level
for each function, with the vectors at the last level.  A level is created
where an element needs it first.
-/

namespace StoreCpp

/-! ## Sorting by a key -/

section Sorting

variable {κ ν : Type*} [LinearOrder κ]

def keyLe (keyOf : ν → κ) (earlier later : ν) : Bool :=
  decide (keyOf earlier ≤ keyOf later)

theorem keyLe_trans (keyOf : ν → κ) (a b c : ν) (hab : keyLe keyOf a b)
    (hbc : keyLe keyOf b c) : keyLe keyOf a c := by
  unfold keyLe at hab hbc ⊢
  exact decide_eq_true
    ((of_decide_eq_true hab).trans (of_decide_eq_true hbc))

theorem keyLe_total (keyOf : ν → κ) (a b : ν) :
    (keyLe keyOf a b || keyLe keyOf b a) = true := by
  unfold keyLe
  rw [Bool.or_eq_true, decide_eq_true_iff, decide_eq_true_iff]
  exact le_total _ _

/-- The sort keeps the order of the elements of one key. -/
theorem withKey_mergeSort (keyOf : ν → κ) (key : κ) (values : List ν) :
    withKey keyOf key (values.mergeSort (keyLe keyOf)) =
      withKey keyOf key values := by
  have hkeys : ∀ value ∈ withKey keyOf key values, keyOf value = key :=
    fun value hmem => (mem_withKey.mp hmem).2
  have hsorted : (withKey keyOf key values).Pairwise
      fun earlier later => keyLe keyOf earlier later = true := by
    rw [List.pairwise_iff_forall_sublist]
    intro a b hsub
    have ha := hkeys a (hsub.subset (by simp))
    have hb := hkeys b (hsub.subset (by simp))
    exact decide_eq_true (ha.trans hb.symm).le
  have hsublist := List.sublist_mergeSort (keyLe_trans keyOf)
    (keyLe_total keyOf) hsorted List.filter_sublist
  have hfiltered := hsublist.filter fun value => decide (keyOf value = key)
  have hagain : (withKey keyOf key values).filter
      (fun value => decide (keyOf value = key)) = withKey keyOf key values :=
    List.filter_eq_self.mpr fun value hmem =>
      decide_eq_true (hkeys value hmem)
  have hlength := ((List.mergeSort_perm values (keyLe keyOf)).filter
    fun value => decide (keyOf value = key)).length_eq
  rw [hagain] at hfiltered
  exact (hfiltered.eq_of_length hlength.symm).symm

/-- Sorted lists with the same elements of each key are the same. -/
theorem eq_of_withKey_eq {keyOf : ν → κ} {xs ys : List ν}
    (hxs : xs.Pairwise fun a b => keyOf a ≤ keyOf b)
    (hys : ys.Pairwise fun a b => keyOf a ≤ keyOf b)
    (heq : ∀ key, withKey keyOf key xs = withKey keyOf key ys) : xs = ys := by
  induction xs generalizing ys with
  | nil =>
      cases ys with
      | nil => rfl
      | cons y ys =>
          have hnone := heq (keyOf y)
          simp [withKey] at hnone
  | cons x xs ih =>
      cases ys with
      | nil =>
          have hnone := heq (keyOf x)
          simp [withKey] at hnone
      | cons y ys =>
          have hmem : ∀ {as bs : List ν} {a : ν}, (∀ key,
              withKey keyOf key as = withKey keyOf key bs) → a ∈ as →
                a ∈ bs := fun {as bs a} hsame ha =>
            (mem_withKey.mp (hsame (keyOf a) ▸ mem_withKey.mpr ⟨ha, rfl⟩)).1
          have hle : ∀ {a b : ν} {as : List ν}, (a :: as).Pairwise
              (fun a b => keyOf a ≤ keyOf b) → b ∈ a :: as →
                keyOf a ≤ keyOf b := by
            intro a b as hsorted hb
            rcases List.mem_cons.mp hb with rfl | hb
            · exact le_rfl
            · exact (List.pairwise_cons.mp hsorted).1 b hb
          have hkey : keyOf x = keyOf y := le_antisymm
            (hle hxs (hmem (fun key => (heq key).symm) List.mem_cons_self))
            (hle hys (hmem heq List.mem_cons_self))
          have hhead := heq (keyOf x)
          simp only [withKey, List.filter_cons, hkey, decide_true,
            if_true, List.cons.injEq] at hhead
          obtain ⟨rfl, -⟩ := hhead
          rw [ih (List.pairwise_cons.mp hxs).2 (List.pairwise_cons.mp hys).2
            fun key => ?_]
          have htail := heq key
          simp only [withKey, List.filter_cons] at htail ⊢
          split_ifs at htail with hx
          · exact (List.cons.inj htail).2
          · exact htail

theorem withKey_flatMap {keyOf : ν → κ} {key : κ}
    {groups : List (κ × List ν)} (hgroups : WellGrouped groups)
    (hkeyed : ∀ group ∈ groups, ∀ value ∈ group.2, keyOf value = group.1) :
    withKey keyOf key (groups.flatMap Prod.snd) = groupAt key groups := by
  induction groups with
  | nil => rfl
  | cons group rest ih =>
      have hrest := ih
        ⟨(List.pairwise_cons.mp hgroups.sorted).2,
          fun g hg => hgroups.nonempty g (List.mem_cons_of_mem _ hg)⟩
        fun g hg => hkeyed g (List.mem_cons_of_mem _ hg)
      have hhead := hkeyed group List.mem_cons_self
      rw [List.flatMap_cons, withKey_append, hrest]
      by_cases hkey : key = group.1
      · have hbehind : groupAt key rest = [] := by
          refine groupAt_eq_nil_of_forall_lt fun g hg => ?_
          rw [hkey]
          exact (List.pairwise_cons.mp hgroups.sorted).1 g hg
        have hall : withKey keyOf key group.2 = group.2 :=
          List.filter_eq_self.mpr fun value hmem =>
            decide_eq_true ((hhead value hmem).trans hkey.symm)
        rw [hall, hbehind, List.append_nil, groupAt, if_pos hkey]
      · have hnone : withKey keyOf key group.2 = [] := by
          refine List.filter_eq_nil_iff.mpr fun value hmem => ?_
          rw [hhead value hmem, decide_eq_true_iff]
          exact Ne.symm hkey
        rw [hnone, List.nil_append, groupAt, if_neg hkey]

/-- The vectors in the order of their keys are the stably sorted elements. -/
theorem groupBy_flatten_eq_mergeSort (keyOf : ν → κ) (values : List ν) :
    (groupBy keyOf values).flatMap Prod.snd =
      values.mergeSort (keyLe keyOf) := by
  have hgroups := wellGrouped_groupBy keyOf values
  have hkeyed : ∀ group ∈ groupBy keyOf values, ∀ value ∈ group.2,
      keyOf value = group.1 := fun group hgroup value hmem => by
    rw [eq_filter_of_mem_groupBy hgroup] at hmem
    exact (mem_withKey.mp hmem).2
  refine @eq_of_withKey_eq _ _ _ keyOf _ _ ?_ ?_ fun key => ?_
  · rw [List.pairwise_flatMap]
    refine ⟨fun group hgroup => ?_, ?_⟩
    · rw [List.pairwise_iff_forall_sublist]
      intro a b hsub
      have ha := hkeyed group hgroup a (hsub.subset (by simp))
      have hb := hkeyed group hgroup b (hsub.subset (by simp))
      exact (ha.trans hb.symm).le
    · refine hgroups.sorted.imp_of_mem fun {earlier later} he hl hlt => ?_
      intro a ha b hb
      rw [hkeyed earlier he a ha, hkeyed later hl b hb]
      exact hlt.le
  · have hsorted := List.pairwise_mergeSort (keyLe_trans keyOf)
      (keyLe_total keyOf) values
    exact hsorted.imp fun hle => of_decide_eq_true hle
  · rw [withKey_mergeSort, withKey_flatMap hgroups hkeyed,
      groupAt_groupBy]
    rfl

end Sorting

/-! ## Maps in maps -/

/-- A key function, with the keys of its level. -/
structure KeyFunction (ν : Type) where
  Key : Type
  order : LinearOrder Key
  keyOf : ν → Key

attribute [instance] KeyFunction.order

variable {ν : Type}

def Grouped (ν : Type) : List (KeyFunction ν) → Type
  | [] => List ν
  | f :: fs => List (f.Key × Grouped ν fs)

namespace Grouped

def empty : (fs : List (KeyFunction ν)) → Grouped ν fs
  | [] => ([] : List ν)
  | f :: fs => ([] : List (f.Key × Grouped ν fs))

end Grouped

/-- The change of `map[key]`, which is created when it is missing. -/
def updateAt {κ μ : Type*} [LinearOrder κ] (key : κ) (created : μ)
    (change : μ → μ) : List (κ × μ) → List (κ × μ)
  | [] => [(key, change created)]
  | (other, held) :: rest =>
      if key < other then (key, change created) :: (other, held) :: rest
      else if key = other then (other, change held) :: rest
      else (other, held) :: updateAt key created change rest

def groupByImpl (value : ν) :
    (fs : List (KeyFunction ν)) → Grouped ν fs → Grouped ν fs
  | [], group => List.append group [value]
  | f :: fs, map => updateAt (f.keyOf value) (Grouped.empty fs)
      (groupByImpl value fs) map

def groupByAll (fs : List (KeyFunction ν)) (values : List ν) :
    Grouped ν fs :=
  values.foldl (fun map value => groupByImpl value fs map) (Grouped.empty fs)

/-- The keys of all levels, the outermost first. -/
def Keys : List (KeyFunction ν) → Type
  | [] => Unit
  | f :: fs => f.Key ×ₗ Keys fs

instance Keys.linearOrder :
    (fs : List (KeyFunction ν)) → LinearOrder (Keys fs)
  | [] => inferInstanceAs (LinearOrder Unit)
  | f :: fs => @Prod.Lex.instLinearOrder f.Key (Keys fs) f.order
      (Keys.linearOrder fs)

def Keys.cons {f : KeyFunction ν} {fs : List (KeyFunction ν)} (key : f.Key)
    (keys : Keys fs) : Keys (f :: fs) :=
  toLex (key, keys)

def keysOf : (fs : List (KeyFunction ν)) → ν → Keys fs
  | [], _ => ()
  | f :: fs, value => Keys.cons (f.keyOf value) (keysOf fs value)

/-- The vectors with their keys, as loops in loops visit them. -/
def Grouped.entries :
    (fs : List (KeyFunction ν)) → Grouped ν fs → List (Keys fs × List ν)
  | [], group => [((), group)]
  | f :: fs, map => List.flatMap
      (fun entry : f.Key × Grouped ν fs =>
        (entries fs entry.2).map fun inner =>
          (Keys.cons entry.1 inner.1, inner.2)) map

theorem entries_cons (f : KeyFunction ν) (fs : List (KeyFunction ν))
    (map : List (f.Key × Grouped ν fs)) :
    @Grouped.entries ν (f :: fs) map = map.flatMap fun entry =>
      (Grouped.entries fs entry.2).map fun inner =>
        (Keys.cons entry.1 inner.1, inner.2) := rfl

theorem updateAt_map {κ μ : Type*} [LinearOrder κ] {created : μ}
    {change : μ → μ} {summary : List ν → μ} {value : ν}
    (hcreated : summary [value] = change created)
    (hchange : ∀ values, summary (values ++ [value]) = change (summary values))
    (key : κ) (groups : List (κ × List ν)) :
    updateAt key created change
        (groups.map fun group => (group.1, summary group.2)) =
      (pushGroup key value groups).map fun group =>
        (group.1, summary group.2) := by
  induction groups with
  | nil => simp [updateAt, pushGroup, hcreated]
  | cons group rest ih =>
      simp only [List.map_cons, updateAt, pushGroup]
      split_ifs with hlt heq
      · simp [hcreated]
      · simp [hchange]
      · rw [ih]
        rfl

theorem groupByAll_concat (fs : List (KeyFunction ν)) (values : List ν)
    (value : ν) :
    groupByAll fs (values ++ [value]) =
      groupByImpl value fs (groupByAll fs values) := by
  rw [groupByAll, List.foldl_append]
  rfl

/-- The maps inside are those of the groups of the first function. -/
theorem groupByAll_cons (f : KeyFunction ν) (fs : List (KeyFunction ν))
    (values : List ν) :
    groupByAll (f :: fs) values = (groupBy f.keyOf values).map fun group =>
      (group.1, groupByAll fs group.2) := by
  induction values using List.reverseRecOn with
  | nil => rfl
  | append_singleton values value ih =>
      have hpush : groupBy f.keyOf (values ++ [value]) =
          pushGroup (f.keyOf value) value (groupBy f.keyOf values) := by
        rw [groupBy, List.foldl_append]
        rfl
      rw [groupByAll_concat, ih, hpush]
      have hcreated : groupByAll fs [value] =
          groupByImpl value fs (Grouped.empty fs) := rfl
      exact updateAt_map hcreated
        (fun group => groupByAll_concat fs group value) _ _

/-! ## One map with tuples of keys -/

theorem Keys.cons_inj {f : KeyFunction ν} {fs : List (KeyFunction ν)}
    {key other : f.Key} {keys others : Keys fs} :
    Keys.cons key keys = Keys.cons other others ↔
      key = other ∧ keys = others := Prod.mk.injEq .. ▸ Iff.rfl

theorem Keys.cons_lt {f : KeyFunction ν} {fs : List (KeyFunction ν)}
    {key other : f.Key} {keys others : Keys fs} :
    Keys.cons key keys < Keys.cons other others ↔
      key < other ∨ key = other ∧ keys < others :=
  Prod.Lex.toLex_lt_toLex

theorem withKey_withKey (f : KeyFunction ν) (fs : List (KeyFunction ν))
    (key : f.Key) (keys : Keys fs) (values : List ν) :
    withKey (keysOf fs) keys (withKey f.keyOf key values) =
      withKey (keysOf (f :: fs)) (Keys.cons key keys) values := by
  unfold withKey
  rw [List.filter_filter]
  refine List.filter_congr fun value _ => ?_
  rw [← Bool.decide_and]
  refine decide_eq_decide.mpr ?_
  rw [keysOf, Keys.cons_inj, and_comm]

theorem groupByAll_nil (values : List ν) : groupByAll [] values = values := by
  induction values using List.reverseRecOn with
  | nil => rfl
  | append_singleton values value ih =>
      rw [groupByAll_concat, ih]
      rfl

theorem eq_of_mem_entries {κ μ : Type*} [LinearOrder κ] {xs ys : List (κ × μ)}
    (hxs : xs.Pairwise fun earlier later => earlier.1 < later.1)
    (hys : ys.Pairwise fun earlier later => earlier.1 < later.1)
    (hmem : ∀ entry, entry ∈ xs ↔ entry ∈ ys) : xs = ys := by
  have : Std.Irrefl fun earlier later : κ × μ => earlier.1 < later.1 :=
    ⟨fun entry => lt_irrefl entry.1⟩
  have : Std.Antisymm fun earlier later : κ × μ => earlier.1 < later.1 :=
    ⟨fun _ _ hlt hgt => absurd hlt hgt.asymm⟩
  exact List.Pairwise.eq_of_mem_iff hxs hys hmem

theorem entries_nil {values : List ν} (hne : values ≠ []) :
    Grouped.entries [] (groupByAll [] values) = groupBy (keysOf []) values := by
  rw [groupByAll_nil]
  refine eq_of_mem_entries (List.pairwise_singleton _ _)
    (wellGrouped_groupBy _ _).sorted ?_
  rintro ⟨⟨⟩, group⟩
  have hall : withKey (keysOf []) () values = values :=
    List.filter_eq_self.mpr fun _ _ => rfl
  refine Iff.trans ?_ mem_groupBy_iff.symm
  rw [hall]
  constructor
  · intro hmem
    cases List.mem_singleton.mp hmem
    exact ⟨rfl, hne⟩
  · rintro ⟨rfl, -⟩
    exact List.mem_singleton_self _

/-- The entries of the maps are those of one map with tuples of keys. -/
theorem entries_groupByAll (fs : List (KeyFunction ν)) (values : List ν)
    (hne : fs ≠ [] ∨ values ≠ []) :
    Grouped.entries fs (groupByAll fs values) = groupBy (keysOf fs) values := by
  induction fs generalizing values with
  | nil => exact entries_nil (hne.resolve_left fun hnil => hnil rfl)
  | cons f fs ih =>
      have hinner : ∀ group ∈ groupBy f.keyOf values,
          Grouped.entries fs (groupByAll fs group.2) =
            groupBy (keysOf fs) group.2 := fun group hgroup =>
        ih group.2 (.inr (ne_nil_of_mem_groupBy hgroup))
      have hentries : Grouped.entries (f :: fs) (groupByAll (f :: fs) values) =
          (groupBy f.keyOf values).flatMap fun group =>
            (groupBy (keysOf fs) group.2).map fun inner =>
              (Keys.cons group.1 inner.1, inner.2) := by
        rw [groupByAll_cons, entries_cons, List.flatMap_map]
        exact List.flatMap_congr fun group hgroup => by
          rw [hinner group hgroup]
      rw [hentries]
      refine eq_of_mem_entries ?_ (wellGrouped_groupBy _ _).sorted ?_
      · rw [List.pairwise_flatMap]
        refine ⟨fun group hgroup => ?_, ?_⟩
        · rw [List.pairwise_map]
          refine (wellGrouped_groupBy (keysOf fs) group.2).sorted.imp ?_
          exact fun hlt => Keys.cons_lt.mpr (.inr ⟨rfl, hlt⟩)
        · refine (wellGrouped_groupBy f.keyOf values).sorted.imp ?_
          intro earlier later hlt a ha b hb
          obtain ⟨_, _, rfl⟩ := List.mem_map.mp ha
          obtain ⟨_, _, rfl⟩ := List.mem_map.mp hb
          exact Keys.cons_lt.mpr (.inl hlt)
      · rintro ⟨⟨key, keys⟩, group⟩
        rw [List.mem_flatMap]
        refine Iff.trans ?_ mem_groupBy_iff.symm
        constructor
        · rintro ⟨⟨outer, elements⟩, houter, hmem⟩
          obtain ⟨⟨others, vector⟩, hvector, heq⟩ := List.mem_map.mp hmem
          obtain ⟨hkeys, rfl⟩ := Prod.mk.inj heq
          obtain ⟨rfl, rfl⟩ := Keys.cons_inj.mp hkeys
          obtain ⟨rfl, -⟩ := mem_groupBy_iff.mp houter
          obtain ⟨hwith, hfull⟩ := mem_groupBy_iff.mp hvector
          exact ⟨hwith.trans (withKey_withKey f fs outer others values), hfull⟩
        · rintro ⟨hwith, hfull⟩
          have hinside : group =
              withKey (keysOf fs) keys (withKey f.keyOf key values) :=
            hwith.trans (withKey_withKey f fs key keys values).symm
          have houter : withKey f.keyOf key values ≠ [] := fun hnil =>
            hfull (by rw [hinside, hnil]; rfl)
          exact ⟨(key, withKey f.keyOf key values),
            mem_groupBy_iff.mpr ⟨rfl, houter⟩,
            List.mem_map.mpr ⟨(keys, group),
              mem_groupBy_iff.mpr ⟨hinside, hfull⟩, rfl⟩⟩

/-- The maps are those of the groups of each function in turn.  Visited in
order, their vectors are the elements with each tuple of keys that occurs, and
one behind the other they are the elements sorted by the tuples. -/
theorem groupByAll_groups (f : KeyFunction ν) (fs : List (KeyFunction ν))
    (values : List ν) :
    (groupByAll (f :: fs) values = (groupBy f.keyOf values).map fun group =>
      (group.1, groupByAll fs group.2)) ∧
    Grouped.entries (f :: fs) (groupByAll (f :: fs) values) =
      groupBy (keysOf (f :: fs)) values ∧
    (∀ keys group,
      (keys, group) ∈ Grouped.entries (f :: fs)
          (groupByAll (f :: fs) values) ↔
        group = withKey (keysOf (f :: fs)) keys values ∧ group ≠ []) ∧
    (Grouped.entries (f :: fs) (groupByAll (f :: fs) values)).flatMap
        Prod.snd =
      values.mergeSort (keyLe (keysOf (f :: fs))) := by
  have hentries := entries_groupByAll (f :: fs) values
    (.inl (List.cons_ne_nil f fs))
  refine ⟨groupByAll_cons f fs values, hentries, fun keys group => ?_, ?_⟩
  · rw [hentries]
    exact mem_groupBy_iff
  · rw [hentries]
    exact groupBy_flatten_eq_mergeSort _ _

end StoreCpp
