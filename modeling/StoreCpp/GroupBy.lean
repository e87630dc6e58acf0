import Mathlib.Data.List.Basic
import Mathlib.Data.List.Sort
import Mathlib.Order.Defs.LinearOrder

/-!
# Grouping a sequence into an ordered map

`groupBy` builds a `std::map` from the key of an element to the vector of the
elements with that key.  The map is kept as the list of its entries in key
order, which is the order in which a range-based `for` visits it.
-/

namespace StoreCpp

section Groups

variable {κ ν : Type*} [LinearOrder κ]

/-- `map[key].push_back(value)` on the sorted entries of the map. -/
def pushGroup (key : κ) (value : ν) : List (κ × List ν) → List (κ × List ν)
  | [] => [(key, [value])]
  | (other, values) :: rest =>
      if key < other then (key, [value]) :: (other, values) :: rest
      else if key = other then (other, values ++ [value]) :: rest
      else (other, values) :: pushGroup key value rest

def groupBy (keyOf : ν → κ) (values : List ν) : List (κ × List ν) :=
  values.foldl (fun groups value => pushGroup (keyOf value) value groups) []

/-- `groupBy` with a key function that may throw. -/
def tryGroupBy (keyOf : ν → Option κ) (values : List ν) :
    Option (List (κ × List ν)) :=
  values.foldlM (fun groups value =>
    (keyOf value).map fun key => pushGroup key value groups) []

def groupAt (key : κ) : List (κ × List ν) → List ν
  | [] => []
  | (other, values) :: rest =>
      if key = other then values else groupAt key rest

/-- The elements of one key, in their order. -/
def withKey (keyOf : ν → κ) (key : κ) (values : List ν) : List ν :=
  values.filter fun value => keyOf value = key

/-- What every map built by `groupBy` satisfies: its keys are in strictly
increasing order and no vector is empty. -/
structure WellGrouped (groups : List (κ × List ν)) : Prop where
  sorted : groups.Pairwise fun earlier later => earlier.1 < later.1
  nonempty : ∀ group ∈ groups, group.2 ≠ []

theorem mem_pushGroup_key {key other : κ} {value : ν}
    {groups : List (κ × List ν)} {values : List ν}
    (hmem : (other, values) ∈ pushGroup key value groups) :
    other = key ∨ ∃ old, (other, old) ∈ groups := by
  induction groups with
  | nil =>
      simp only [pushGroup, List.mem_singleton, Prod.mk.injEq] at hmem
      exact Or.inl hmem.1
  | cons group rest ih =>
      obtain ⟨head, stored⟩ := group
      simp only [pushGroup] at hmem
      split_ifs at hmem with hlt heq
      · rcases List.mem_cons.mp hmem with hnew | hold
        · exact Or.inl (congrArg Prod.fst hnew)
        · exact Or.inr ⟨values, hold⟩
      · rcases List.mem_cons.mp hmem with hnew | hold
        · exact Or.inl ((congrArg Prod.fst hnew).trans heq.symm)
        · exact Or.inr ⟨values, List.mem_cons_of_mem _ hold⟩
      · rcases List.mem_cons.mp hmem with hnew | hold
        · exact Or.inr ⟨values, hnew ▸ List.mem_cons_self⟩
        · rcases ih hold with hkey | ⟨old, hold⟩
          · exact Or.inl hkey
          · exact Or.inr ⟨old, List.mem_cons_of_mem _ hold⟩

theorem WellGrouped.pushGroup {groups : List (κ × List ν)}
    (hgroups : WellGrouped groups) (key : κ) (value : ν) :
    WellGrouped (pushGroup key value groups) := by
  induction groups with
  | nil => constructor <;> simp [StoreCpp.pushGroup]
  | cons group rest ih =>
      obtain ⟨head, stored⟩ := group
      have hhead := (List.pairwise_cons.mp hgroups.sorted).1
      have hrest : WellGrouped rest :=
        ⟨(List.pairwise_cons.mp hgroups.sorted).2,
          fun g hg => hgroups.nonempty g (List.mem_cons_of_mem _ hg)⟩
      have hstored : stored ≠ [] :=
        hgroups.nonempty (head, stored) List.mem_cons_self
      simp only [StoreCpp.pushGroup]
      split_ifs with hlt heq
      · constructor
        · refine List.pairwise_cons.mpr ⟨?_, hgroups.sorted⟩
          intro g hg
          rcases List.mem_cons.mp hg with rfl | hg
          · exact hlt
          · exact hlt.trans (hhead g hg)
        · intro g hg
          rcases List.mem_cons.mp hg with rfl | hg
          · simp
          · exact hgroups.nonempty g hg
      · constructor
        · exact List.pairwise_cons.mpr ⟨hhead, hrest.sorted⟩
        · intro g hg
          rcases List.mem_cons.mp hg with rfl | hg
          · simp
          · exact hrest.nonempty g hg
      · have hlater : head < key :=
          lt_of_le_of_ne (not_lt.mp hlt) (Ne.symm heq)
        constructor
        · refine List.pairwise_cons.mpr ⟨?_, (ih hrest).sorted⟩
          rintro ⟨other, values⟩ hg
          rcases mem_pushGroup_key hg with rfl | ⟨old, hold⟩
          · exact hlater
          · exact hhead (other, old) hold
        · intro g hg
          rcases List.mem_cons.mp hg with rfl | hg
          · exact hstored
          · exact (ih hrest).nonempty g hg

theorem groupAt_eq_nil_of_forall_lt {key : κ} {groups : List (κ × List ν)}
    (hlt : ∀ group ∈ groups, key < group.1) : groupAt key groups = [] := by
  induction groups with
  | nil => rfl
  | cons group rest ih =>
      have hne : key ≠ group.1 := (hlt group List.mem_cons_self).ne
      simp only [groupAt, if_neg hne]
      exact ih fun g hg => hlt g (List.mem_cons_of_mem _ hg)

theorem groupAt_pushGroup {groups : List (κ × List ν)}
    (hgroups : WellGrouped groups) (key other : κ) (value : ν) :
    groupAt other (pushGroup key value groups) =
      if other = key then groupAt key groups ++ [value]
      else groupAt other groups := by
  induction groups with
  | nil => by_cases hkey : other = key <;> simp [pushGroup, groupAt, hkey]
  | cons group rest ih =>
      obtain ⟨head, stored⟩ := group
      have hhead := (List.pairwise_cons.mp hgroups.sorted).1
      have hrest : WellGrouped rest :=
        ⟨(List.pairwise_cons.mp hgroups.sorted).2,
          fun g hg => hgroups.nonempty g (List.mem_cons_of_mem _ hg)⟩
      by_cases hlt : key < head
      · have habsent : groupAt key ((head, stored) :: rest) = [] := by
          refine groupAt_eq_nil_of_forall_lt fun g hg => ?_
          rcases List.mem_cons.mp hg with rfl | hg
          · exact hlt
          · exact hlt.trans (hhead g hg)
        simp only [pushGroup, if_pos hlt, habsent]
        by_cases hkey : other = key <;> simp [groupAt, hkey]
      · by_cases heq : key = head
        · subst heq
          by_cases hkey : other = key <;> simp [pushGroup, groupAt, hkey]
        · simp only [pushGroup, if_neg hlt, if_neg heq, groupAt, ih hrest]
          by_cases hkey : other = key
          · subst hkey
            simp [heq]
          · simp [hkey]

theorem wellGrouped_foldl (keyOf : ν → κ) (values : List ν)
    {groups : List (κ × List ν)} (hgroups : WellGrouped groups) :
    WellGrouped (values.foldl
      (fun m value => pushGroup (keyOf value) value m) groups) := by
  induction values generalizing groups with
  | nil => exact hgroups
  | cons value values ih =>
      exact ih (hgroups.pushGroup (keyOf value) value)

theorem wellGrouped_groupBy (keyOf : ν → κ) (values : List ν) :
    WellGrouped (groupBy keyOf values) :=
  wellGrouped_foldl keyOf values ⟨List.Pairwise.nil, by simp⟩

theorem groupAt_foldl (keyOf : ν → κ) (values : List ν) (key : κ)
    {groups : List (κ × List ν)} (hgroups : WellGrouped groups) :
    groupAt key (values.foldl
        (fun m value => pushGroup (keyOf value) value m) groups) =
      groupAt key groups ++ values.filter fun value => keyOf value = key := by
  induction values generalizing groups with
  | nil => simp
  | cons value values ih =>
      rw [List.foldl_cons, ih (hgroups.pushGroup (keyOf value) value),
        groupAt_pushGroup hgroups]
      by_cases hkey : key = keyOf value
      · simp [hkey]
      · simp [hkey, Ne.symm hkey]

/-- A key's vector holds the elements with that key, in their order. -/
theorem groupAt_groupBy (keyOf : ν → κ) (values : List ν) (key : κ) :
    groupAt key (groupBy keyOf values) =
      values.filter fun value => keyOf value = key := by
  have hfold := groupAt_foldl keyOf values key
    (⟨List.Pairwise.nil, by simp⟩ : WellGrouped ([] : List (κ × List ν)))
  simpa [groupBy, groupAt] using hfold

theorem WellGrouped.groupAt_of_mem {groups : List (κ × List ν)}
    (hgroups : WellGrouped groups) {key : κ} {values : List ν}
    (hmem : (key, values) ∈ groups) : groupAt key groups = values := by
  induction groups with
  | nil => simp at hmem
  | cons group rest ih =>
      have hhead := (List.pairwise_cons.mp hgroups.sorted).1
      rcases List.mem_cons.mp hmem with rfl | hmem
      · simp [groupAt]
      · have hne : key ≠ group.1 := (hhead _ hmem).ne'
        simp only [groupAt, if_neg hne]
        exact ih ⟨(List.pairwise_cons.mp hgroups.sorted).2,
          fun g hg => hgroups.nonempty g (List.mem_cons_of_mem _ hg)⟩ hmem

theorem eq_filter_of_mem_groupBy {keyOf : ν → κ} {values : List ν}
    {key : κ} {group : List ν}
    (hmem : (key, group) ∈ groupBy keyOf values) :
    group = values.filter fun value => keyOf value = key := by
  rw [← (wellGrouped_groupBy keyOf values).groupAt_of_mem hmem]
  exact groupAt_groupBy keyOf values key

theorem ne_nil_of_mem_groupBy {keyOf : ν → κ} {values : List ν}
    {key : κ} {group : List ν}
    (hmem : (key, group) ∈ groupBy keyOf values) : group ≠ [] :=
  (wellGrouped_groupBy keyOf values).nonempty _ hmem

theorem groupAt_ne_nil {key : κ} {groups : List (κ × List ν)}
    (hne : groupAt key groups ≠ []) :
    (key, groupAt key groups) ∈ groups := by
  induction groups with
  | nil => exact absurd rfl hne
  | cons group rest ih =>
      unfold groupAt at hne ⊢
      split_ifs at hne ⊢ with hkey
      · rw [hkey]
        exact List.mem_cons_self
      · exact List.mem_cons_of_mem _ (ih hne)

theorem mem_withKey {keyOf : ν → κ} {key : κ} {values : List ν} {value : ν} :
    value ∈ withKey keyOf key values ↔
      value ∈ values ∧ keyOf value = key := by
  simp [withKey]

theorem withKey_append (keyOf : ν → κ) (key : κ) (xs ys : List ν) :
    withKey keyOf key (xs ++ ys) =
      withKey keyOf key xs ++ withKey keyOf key ys :=
  List.filter_append ..

/-- The entries are the keys that occur, each with all elements of that key. -/
theorem mem_groupBy_iff {keyOf : ν → κ} {values : List ν} {key : κ}
    {group : List ν} :
    (key, group) ∈ groupBy keyOf values ↔
      group = withKey keyOf key values ∧ group ≠ [] := by
  constructor
  · intro hmem
    exact ⟨eq_filter_of_mem_groupBy hmem, ne_nil_of_mem_groupBy hmem⟩
  · intro ⟨hgroup, hne⟩
    rw [withKey, ← groupAt_groupBy keyOf values key] at hgroup
    rw [hgroup] at hne ⊢
    exact groupAt_ne_nil hne

/-- What is computed from the groups of two sequences is the same when it is
the same from the elements of each key. -/
theorem groupBy_map_eq {μ : Type*} {keyOf : ν → κ} {xs ys : List ν}
    {summary : List ν → μ}
    (hoccurs : ∀ key, withKey keyOf key xs = [] ↔ withKey keyOf key ys = [])
    (hsummary : ∀ key, withKey keyOf key xs ≠ [] →
      summary (withKey keyOf key xs) = summary (withKey keyOf key ys)) :
    (groupBy keyOf xs).map (fun group => summary group.2) =
      (groupBy keyOf ys).map fun group => summary group.2 := by
  have hentries : ∀ zs : List ν, (groupBy keyOf zs).map
      (fun group => summary group.2) =
        ((groupBy keyOf zs).map Prod.fst).map fun key =>
          summary (withKey keyOf key zs) := by
    intro zs
    rw [List.map_map]
    apply List.map_congr_left
    intro group hgroup
    rw [Function.comp_apply, withKey, ← eq_filter_of_mem_groupBy hgroup]
  have hmemKeys : ∀ (zs : List ν) key,
      key ∈ (groupBy keyOf zs).map Prod.fst ↔
        withKey keyOf key zs ≠ [] := by
    intro zs key
    constructor
    · intro hkey
      obtain ⟨⟨other, group⟩, hgroup, rfl⟩ := List.mem_map.mp hkey
      obtain ⟨heq, hne⟩ := mem_groupBy_iff.mp hgroup
      exact heq ▸ hne
    · intro hne
      have hgroup := mem_groupBy_iff.mpr ⟨rfl, hne⟩
      exact List.mem_map.mpr ⟨_, hgroup, rfl⟩
  have hkeys : (groupBy keyOf xs).map Prod.fst =
      (groupBy keyOf ys).map Prod.fst := by
    apply List.Pairwise.eq_of_mem_iff
      (List.pairwise_map.mpr (wellGrouped_groupBy keyOf xs).sorted)
      (List.pairwise_map.mpr (wellGrouped_groupBy keyOf ys).sorted)
    intro key
    rw [hmemKeys, hmemKeys, ne_eq, ne_eq, hoccurs key]
  rw [hentries xs, hentries ys, ← hkeys]
  apply List.map_congr_left
  intro key hkey
  exact hsummary key ((hmemKeys xs key).mp hkey)

theorem tryGroupBy_eq {keyOf : ν → Option κ} {keyOf' : ν → κ}
    {values : List ν} (hkeys : ∀ value ∈ values, keyOf value = some (keyOf' value)) :
    tryGroupBy keyOf values = some (groupBy keyOf' values) := by
  have hfold : ∀ groups : List (κ × List ν),
      values.foldlM (fun groups value => (keyOf value).map fun key =>
          pushGroup key value groups) groups =
        some (values.foldl
          (fun groups value => pushGroup (keyOf' value) value groups)
          groups) := by
    induction values with
    | nil => intro groups; rfl
    | cons value values ih =>
        intro groups
        rw [List.foldlM_cons, hkeys value List.mem_cons_self]
        exact ih (fun other hother =>
          hkeys other (List.mem_cons_of_mem _ hother)) _
  exact hfold []

theorem pushGroup_flatten_perm (key : κ) (value : ν)
    (groups : List (κ × List ν)) :
    ((pushGroup key value groups).flatMap Prod.snd).Perm
      (groups.flatMap Prod.snd ++ [value]) := by
  induction groups with
  | nil => simp [pushGroup]
  | cons group rest ih =>
      obtain ⟨head, stored⟩ := group
      simp only [pushGroup]
      split_ifs with hlt heq
      · simpa using (List.perm_append_singleton value
          (stored ++ rest.flatMap Prod.snd)).symm
      · simp only [List.flatMap_cons, List.append_assoc]
        exact List.Perm.append_left stored List.perm_append_comm
      · simp only [List.flatMap_cons, List.append_assoc]
        exact ih.append_left stored

/-- Grouping neither drops nor repeats an element. -/
theorem groupBy_flatten_perm (keyOf : ν → κ) (values : List ν) :
    ((groupBy keyOf values).flatMap Prod.snd).Perm values := by
  have hfold : ∀ groups : List (κ × List ν),
      ((values.foldl (fun m value => pushGroup (keyOf value) value m)
        groups).flatMap Prod.snd).Perm (groups.flatMap Prod.snd ++ values) := by
    induction values with
    | nil => intro groups; simp
    | cons value values ih =>
        intro groups
        rw [List.foldl_cons]
        refine (ih _).trans ?_
        simpa using
          (pushGroup_flatten_perm (keyOf value) value groups).append_right values
  simpa [groupBy] using hfold []

end Groups

end StoreCpp
