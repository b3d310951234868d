import FlowDiagram.Proofs.Text.Order
import FlowDiagram.RecentStore
import Mathlib.Data.Finset.Card
import Mathlib.Data.List.Dedup
import Mathlib.Data.List.TakeWhile

/-!
# What a store of recent values holds

The keys of a store are told by the uses of its keys alone: of the keys used, those used last, as
many as there is room for.  So the value of a key is there if fewer other keys have been used since.
Uses are listed with the latest first.
-/

namespace FlowDiagram

variable {κ ω : Type} [DecidableEq κ]

/-! ## Keys by their latest use -/

/-- As many as there are different keys. -/
theorem length_eraseDups (uses : List κ) : uses.eraseDups.length = uses.toFinset.card := by
  have same : uses.eraseDups.toFinset = uses.toFinset := by
    ext key
    simp [List.mem_eraseDups]
  rw [← same, List.toFinset_card_of_nodup (nodup_eraseDups uses)]

theorem eraseDups_filter (p : κ → Bool) :
    ∀ uses : List κ, (uses.filter p).eraseDups = uses.eraseDups.filter p
  | [] => by simp
  | key :: earlier => by
    have rest := eraseDups_filter p (earlier.filter fun other => !other == key)
    rw [List.filter_filter] at rest
    rw [List.eraseDups_cons]
    cases kept : p key with
    | true =>
      simp only [List.filter_cons, kept, if_true, List.eraseDups_cons, List.filter_filter, ← rest,
        Bool.and_comm]
    | false =>
      simp only [List.filter_cons, kept, Bool.false_eq_true, if_false, ← rest]
      congr 1
      refine List.filter_congr fun other _ => ?_
      by_cases same : other = key
      · simp [same, kept]
      · simp [same]
termination_by uses => uses.length
decreasing_by exact Nat.lt_succ_of_le (List.length_filter_le _ _)

theorem eraseDups_cons_ne (key : κ) (earlier : List κ) :
    (key :: earlier).eraseDups = key :: earlier.eraseDups.filter (· ≠ key) := by
  rw [List.eraseDups_cons, eraseDups_filter]
  congr 1
  exact List.filter_congr fun other _ => by by_cases same : other = key <;> simp [same]

/-- A key is among those used last if fewer others have been used since. -/
theorem mem_take_eraseDups {uses : List κ} {key : κ} {count : Nat} :
    key ∈ uses.eraseDups.take count ↔
      key ∈ uses ∧ (uses.takeWhile (· ≠ key)).toFinset.card < count := by
  by_cases used : key ∈ uses
  · obtain ⟨since, earlier, rfl, last⟩ := List.eq_append_cons_of_mem used
    have others : ∀ other ∈ since, other ≠ key := fun other member same => last (same ▸ member)
    have before : (since ++ key :: earlier).takeWhile (· ≠ key) = since := by
      rw [List.takeWhile_append_of_pos fun other member => by simpa using others other member]
      simp
    have place : (since ++ key :: earlier).eraseDups.idxOf key = since.toFinset.card := by
      have first : ((key :: earlier).removeAll since) = key :: earlier.removeAll since := by
        simp [List.removeAll, last]
      rw [List.eraseDups_append, first, List.eraseDups_cons,
        List.idxOf_append_of_notMem (by simpa [List.mem_eraseDups] using last),
        List.idxOf_cons_self, Nat.add_zero, length_eraseDups]
    rw [List.mem_take_iff_idxOf_lt (List.mem_eraseDups.mpr used), place, before]
    exact ⟨fun inside => ⟨used, inside⟩, And.right⟩
  · have absent : key ∉ uses.eraseDups.take count := fun member =>
      used (List.mem_eraseDups.mp (List.mem_of_mem_take member))
    simp [used, absent]

/-! ## The queue and the values -/

namespace RecentStore

variable {store : RecentStore κ ω} {key other : κ} {value : ω} {uses : List κ}

/-- The keys of a store, the one used last first. -/
def recentKeys (store : RecentStore κ ω) : List κ := store.order.reverse

/-- The queue lists the keys of the values, each once, and no more than there is room for. -/
structure InStep (store : RecentStore κ ω) : Prop where
  distinct : store.order.Nodup
  keys : (store.entries.map (·.1)).Perm store.order
  bounded : store.order.length ≤ store.capacity

omit [DecidableEq κ] in
theorem InStep.empty (capacity : Nat) : (RecentStore.empty capacity : RecentStore κ ω).InStep :=
  ⟨.nil, .nil, Nat.zero_le _⟩

theorem value?_isSome : (store.value? key).isSome ↔ key ∈ store.entries.map (·.1) := by
  simp [value?, List.find?_isSome]

theorem InStep.mem_order_iff (inStep : store.InStep) :
    key ∈ store.order ↔ (store.value? key).isSome :=
  inStep.keys.mem_iff.symm.trans value?_isSome.symm

theorem InStep.value?_eq_none (inStep : store.InStep) (absent : key ∉ store.order) :
    store.value? key = none := by
  rwa [inStep.mem_order_iff, Option.not_isSome_iff_eq_none] at absent

theorem map_without (key : κ) (entries : List (κ × ω)) :
    (without key entries).map (·.1) = (entries.map (·.1)).filter (· ≠ key) := by
  simp [without, List.filter_map, Function.comp_def]

/-- The entries that are left when the first keys of a queue are dropped are those of the others. -/
theorem perm_drop {entries : List (κ × ω)} {order : List κ} (distinct : order.Nodup)
    (keys : (entries.map (·.1)).Perm order) (count : Nat) :
    ((entries.filter fun entry => entry.1 ∉ order.take count).map (·.1)).Perm
      (order.drop count) := by
  have kept : order.filter (· ∉ order.take count) = order.drop count := by
    rw [← List.take_append_drop count order, List.nodup_append] at distinct
    obtain ⟨-, -, apart⟩ := distinct
    conv_lhs => rw [← List.take_append_drop count order]
    rw [List.filter_append, List.filter_eq_nil_iff.mpr, List.nil_append, List.filter_eq_self.mpr]
    · intro key later
      rw [List.take_append_drop]
      simpa using fun early => apart key early key later rfl
    · intro key early
      rw [List.take_append_drop]
      simpa using early
  have dropped := keys.filter (· ∉ order.take count)
  rw [kept, List.filter_map] at dropped
  exact dropped

/-- What is left when as many keys are dropped as there are too many. -/
theorem evict_eq (capacity : Nat) (order : List κ) (entries : List (κ × ω)) :
    evict capacity order entries = (order.drop (order.length - capacity),
      entries.filter fun entry => entry.1 ∉ order.take (order.length - capacity)) := by
  induction order generalizing entries with
  | nil => simp [evict]
  | cons oldest later ih =>
      unfold evict
      split
      · rename_i full
        have more : (oldest :: later).length - capacity = (later.length - capacity) + 1 := by
          rw [List.length_cons]
          omega
        rw [more, ih, List.drop_succ_cons, List.take_succ_cons, without, List.filter_filter]
        congr 1
        refine List.filter_congr fun entry _ => ?_
        simp [Bool.and_comm]
      · rename_i fits
        have none_ : (oldest :: later).length - capacity = 0 := by
          rw [List.length_cons]
          omega
        rw [none_]
        simp

/-! ## One call -/

@[simp] theorem capacity_insert (store : RecentStore κ ω) (key : κ) (value : ω) :
    (store.insert key value).capacity = store.capacity := by
  unfold insert
  dsimp only
  split <;> rfl

@[simp] theorem capacity_get (store : RecentStore κ ω) (key : κ) :
    (store.get key).2.capacity = store.capacity := by
  unfold get
  split <;> rfl

/-- To read leaves all values as they are. -/
@[simp] theorem value?_get (store : RecentStore κ ω) (key other : κ) :
    (store.get key).2.value? other = store.value? other := by
  unfold get
  split <;> rfl

theorem get_of_value? (found : store.value? key = some value) :
    store.get key = (some value, store.touch key) := by
  simp only [get, found]

/-- A value that is not there costs no other its place. -/
theorem get_of_value?_eq_none (missing : store.value? key = none) :
    store.get key = (none, store) := by
  simp only [get, missing]

theorem InStep.touch (inStep : store.InStep) (there : key ∈ store.order) :
    (store.touch key).InStep := by
  have moved : (store.order.erase key ++ [key]).Perm store.order :=
    (List.perm_append_singleton key _).trans (List.perm_cons_erase there).symm
  exact ⟨moved.nodup_iff.mpr inStep.distinct, inStep.keys.trans moved.symm,
    moved.length_eq.trans_le inStep.bounded⟩

theorem InStep.recentKeys_touch (inStep : store.InStep) (key : κ) :
    (store.touch key).recentKeys = key :: store.recentKeys.filter (· ≠ key) := by
  simp [RecentStore.touch, recentKeys, inStep.distinct.erase_eq_filter, List.filter_reverse,
    bne, beq_eq_decide]

/-- A value replaced costs no other its place. -/
theorem InStep.insert_of_mem (inStep : store.InStep) (there : key ∈ store.order) (value : ω) :
    store.insert key value =
      { store with entries := (key, value) :: without key store.entries }.touch key :=
  if_pos (inStep.mem_order_iff.mp there)

/-- How many values a new one costs their place. -/
def surplus (store : RecentStore κ ω) : Nat := store.order.length + 1 - store.capacity

theorem InStep.insert_of_not_mem (inStep : store.InStep) (new : key ∉ store.order) (value : ω) :
    store.insert key value =
      { store with
        order := (store.order ++ [key]).drop store.surplus
        entries := ((key, value) :: without key store.entries).filter fun entry =>
          entry.1 ∉ (store.order ++ [key]).take store.surplus } := by
  have missing : ¬ (store.value? key).isSome := mt inStep.mem_order_iff.mpr new
  unfold RecentStore.insert
  rw [if_neg missing, evict_eq, List.length_append, List.length_singleton]
  rfl

/-- The keys of the values when one has been put in, before any is dropped. -/
theorem InStep.keys_put (inStep : store.InStep) (key : κ) (value : ω) :
    (((key, value) :: without key store.entries).map (·.1)).Perm
      (store.order.erase key ++ [key]) := by
  rw [List.map_cons, map_without, inStep.distinct.erase_eq_filter]
  refine (List.Perm.cons key ?_).trans (List.perm_append_singleton key _).symm
  simpa [bne, beq_eq_decide] using inStep.keys.filter (· ≠ key)

theorem InStep.insert (inStep : store.InStep) (key : κ) (value : ω) :
    (store.insert key value).InStep := by
  have keys := inStep.keys_put key value
  by_cases there : key ∈ store.order
  · rw [inStep.insert_of_mem there]
    have touched := inStep.touch there
    exact ⟨touched.distinct, keys, touched.bounded⟩
  · rw [inStep.insert_of_not_mem there]
    rw [List.erase_of_not_mem there] at keys
    have distinct : (store.order ++ [key]).Nodup :=
      (List.perm_append_singleton key _).nodup_iff.mpr (inStep.distinct.cons there)
    refine ⟨distinct.sublist (List.drop_sublist _ _), perm_drop distinct keys _, ?_⟩
    simp only [List.length_drop, List.length_append, List.length_singleton, surplus]
    omega

theorem InStep.recentKeys_insert (inStep : store.InStep) (key : κ) (value : ω) :
    (store.insert key value).recentKeys =
      (key :: store.recentKeys.filter (· ≠ key)).take store.capacity := by
  by_cases there : key ∈ store.order
  · have touched := inStep.touch there
    have fits : (store.touch key).recentKeys.length ≤ store.capacity := by
      rw [recentKeys, List.length_reverse]
      exact touched.bounded
    rw [inStep.recentKeys_touch] at fits
    rw [inStep.insert_of_mem there, List.take_of_length_le fits]
    exact inStep.recentKeys_touch key
  · have others : store.recentKeys.filter (· ≠ key) = store.recentKeys :=
      List.filter_eq_self.mpr fun other member => by
        have ne : other ≠ key := fun same => there (same ▸ List.mem_reverse.mp member)
        simpa using ne
    have reversed : key :: store.order.reverse = (store.order ++ [key]).reverse := by simp
    rw [inStep.insert_of_not_mem there, others, recentKeys, recentKeys, reversed,
      List.take_reverse, List.length_append, List.length_singleton]
    rfl

theorem InStep.get (inStep : store.InStep) (key : κ) : (store.get key).2.InStep := by
  cases found : store.value? key with
  | none =>
      rw [get_of_value?_eq_none found]
      exact inStep
  | some value =>
      rw [get_of_value? found]
      exact inStep.touch (inStep.mem_order_iff.mpr (by simp [found]))

/-! ## Values -/

/-- The value of a key among some entries. -/
theorem find?_filter_keys (keep : κ → Bool) (entries : List (κ × ω)) (key : κ) :
    (entries.filter fun entry => keep entry.1).find? (·.1 = key) =
      if keep key then entries.find? (·.1 = key) else none := by
  rw [List.find?_filter]
  split
  · rename_i kept
    congr 1
    funext entry
    by_cases same : entry.1 = key
    · simp [same, kept]
    · simp [same]
  · rename_i dropped
    refine List.find?_eq_none.mpr fun entry _ => ?_
    by_cases same : entry.1 = key
    · simp [same, dropped]
    · simp [same]

/-- The values after one has been stored: those of the keys that the queue still lists. -/
theorem InStep.value?_insert (inStep : store.InStep) (key : κ) (value : ω) (other : κ) :
    (store.insert key value).value? other =
      if other ∈ (store.insert key value).order then
        if other = key then some value else store.value? other
      else none := by
  split
  · rename_i listed
    have put : ((((key, value) :: without key store.entries).find? (·.1 = other)).map (·.2)) =
        if other = key then some value else store.value? other := by
      have rest := find?_filter_keys (fun other => decide (other ≠ key)) store.entries other
      rw [List.find?_cons]
      by_cases same : other = key
      · simp [same]
      · rw [if_neg same, without, rest]
        simp [same, Ne.symm same, value?]
    by_cases there : key ∈ store.order
    · rw [inStep.insert_of_mem there]
      exact put
    · rw [inStep.insert_of_not_mem there] at listed ⊢
      -- a key that the queue still lists is not one of those dropped from it
      have distinct : (store.order ++ [key]).Nodup :=
        (List.perm_append_singleton key _).nodup_iff.mpr (inStep.distinct.cons there)
      have staying : other ∉ (store.order ++ [key]).take store.surplus := fun dropped =>
        List.disjoint_take_drop distinct (Nat.le_refl _) dropped listed
      rw [← put, RecentStore.value?,
        find?_filter_keys (fun other => decide (other ∉ _)), if_pos (by simpa using staying)]
  · rename_i gone
    exact (inStep.insert key value).value?_eq_none gone

/-! ## What a store holds -/

/-- A store holds the keys used last. -/
structure Holds (store : RecentStore κ ω) (uses : List κ) : Prop where
  inStep : store.InStep
  recent : store.recentKeys = uses.eraseDups.take store.capacity

theorem Holds.empty (capacity : Nat) :
    (RecentStore.empty capacity : RecentStore κ ω).Holds [] :=
  ⟨.empty capacity, by simp [recentKeys, RecentStore.empty]⟩

/-- Where no key is listed twice, room left for others is not lost to one that is used again. -/
theorem take_filter_take {keys : List κ} (distinct : keys.Nodup) (key : κ) (count : Nat) :
    ((keys.take (count + 1)).filter (· ≠ key)).take count = (keys.filter (· ≠ key)).take count := by
  induction keys generalizing count with
  | nil => simp
  | cons first rest ih =>
    obtain ⟨new, distinct⟩ := List.nodup_cons.mp distinct
    by_cases same : first = key
    · subst same
      have others : ∀ list ⊆ rest, list.filter (· ≠ first) = list := fun list inside =>
        List.filter_eq_self.mpr fun other member => by
          simpa using fun same : other = first => new (same ▸ inside member)
      rw [List.take_succ_cons, List.filter_cons_of_neg (by simp), List.filter_cons_of_neg (by simp),
        others _ (List.take_subset _ _), others _ (List.Subset.refl _), List.take_take,
        Nat.min_self]
    · cases count with
      | zero => simp
      | succ count => simpa [same] using ih distinct count

/-- The keys used last when one is used again. -/
theorem take_eraseDups_cons (key : κ) (uses : List κ) (count : Nat) :
    (key :: (uses.eraseDups.take count).filter (· ≠ key)).take count =
      (key :: uses).eraseDups.take count := by
  rw [eraseDups_cons_ne]
  cases count with
  | zero => simp
  | succ count => simp only [List.take_succ_cons, take_filter_take (nodup_eraseDups uses)]

theorem Holds.insert (holds : store.Holds uses) (key : κ) (value : ω) :
    (store.insert key value).Holds (key :: uses) := by
  refine ⟨holds.inStep.insert key value, ?_⟩
  rw [holds.inStep.recentKeys_insert, holds.recent, capacity_insert, take_eraseDups_cons]

/-- A value is there if fewer other keys than there is room for have been used since its own. -/
theorem Holds.value?_isSome (holds : store.Holds uses) (key : κ) :
    (store.value? key).isSome ↔
      key ∈ uses ∧ (uses.takeWhile (· ≠ key)).toFinset.card < store.capacity := by
  rw [← holds.inStep.mem_order_iff, ← List.mem_reverse, ← recentKeys, holds.recent,
    mem_take_eraseDups]

theorem Holds.get (holds : store.Holds uses) (found : store.value? key = some value) :
    (store.get key).2.Holds (key :: uses) := by
  refine ⟨holds.inStep.get key, ?_⟩
  have listed : key ∈ store.order := holds.inStep.mem_order_iff.mpr (by simp [found])
  have fits := (holds.inStep.touch listed).bounded
  rw [← List.length_reverse, ← recentKeys, holds.inStep.recentKeys_touch] at fits
  rw [get_of_value? found, holds.inStep.recentKeys_touch, ← List.take_of_length_le fits,
    holds.recent]
  exact take_eraseDups_cons key uses _

/-! ## What the values are -/

/-- Every value of a store is the one told for its key. -/
def Agrees (store : RecentStore κ ω) (values : κ → Option ω) : Prop :=
  ∀ key value, store.value? key = some value → values key = some value

theorem Agrees.empty (capacity : Nat) (values : κ → Option ω) :
    (RecentStore.empty capacity).Agrees values := nofun

theorem Agrees.value? {values : κ → Option ω} (agrees : store.Agrees values)
    (found : store.value? key = some value) : values key = some value :=
  agrees key value found

theorem Agrees.insert {values : κ → Option ω} (agrees : store.Agrees values)
    (inStep : store.InStep) (key : κ) (value : ω) :
    (store.insert key value).Agrees (Function.update values key (some value)) := by
  intro other found there
  rw [inStep.value?_insert] at there
  split at there
  · split at there
    · rename_i same
      rw [same, Function.update_self, there]
    · rename_i ne
      rw [Function.update_of_ne ne]
      exact agrees other found there
  · cases there

theorem Agrees.get {values : κ → Option ω} (agrees : store.Agrees values) (key : κ) :
    (store.get key).2.Agrees values := by
  intro other found there
  rw [value?_get] at there
  exact agrees other found there

end RecentStore

end FlowDiagram
