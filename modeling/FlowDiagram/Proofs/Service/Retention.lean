import FlowDiagram.Proofs.Service.Recency

/-!
# Which values a store retains

After any calls, a store shows the list of entries that is kept by moving what is used to the front
and cutting off what there is no room for.  The value read under a key is the last one stored under
it, as long as fewer others than there is room for have been used since.
-/

namespace FlowDiagram

variable {κ ω : Type} [DecidableEq κ]

/-! ## Calls -/

/-- A call to a store. -/
inductive StoreCall (κ ω : Type) where
  | insert (key : κ) (value : ω)
  | get (key : κ)

namespace StoreCall

/-- What a call does to a store, and the value that it reads. -/
def run : StoreCall κ ω → RecentStore κ ω → Option ω × RecentStore κ ω
  | insert key value, store => (none, store.insert key value)
  | get key, store => store.get key

/-- The key that a call uses, given what it reads: a call that reads nothing uses none. -/
def used? : StoreCall κ ω → Option ω → Option κ
  | insert key _, _ => some key
  | get key, some _ => some key
  | get _, none => none

/-- The value that a call stores under a key. -/
def stored? (key : κ) : StoreCall κ ω → Option ω
  | insert other value => if other = key then some value else none
  | get _ => none

/-- What a call does to a list of entries, the one used last first, with room for so many. -/
def runOnList (room : Nat) : StoreCall κ ω → List (κ × ω) → Option ω × List (κ × ω)
  | insert key value, entries => (none, ((key, value) :: RecentStore.without key entries).take room)
  | get key, entries =>
    match (entries.find? (·.1 = key)).map (·.2) with
    | some value => (some value, (key, value) :: RecentStore.without key entries)
    | none => (none, entries)

end StoreCall

namespace RecentStore

/-- The store that a history of calls leaves, the earliest call first. -/
def after (capacity : Nat) (history : List (StoreCall κ ω)) : RecentStore κ ω :=
  history.foldl (fun store call => (call.run store).2) (.empty capacity)

/-- The list of entries that a history leaves. -/
def listAfter (capacity : Nat) (history : List (StoreCall κ ω)) : List (κ × ω) :=
  history.foldl (fun entries call => (call.runOnList (max 1 capacity) entries).2) []

/-- The keys stored and read in a history, the latest first. -/
def uses (capacity : Nat) (history : List (StoreCall κ ω)) : List κ :=
  (history.foldl
    (fun (store, uses) call => ((call.run store).2, (call.used? (call.run store).1).toList ++ uses))
    (RecentStore.empty capacity, [])).2

/-- The keys used since one was used last. -/
def usedSince (capacity : Nat) (history : List (StoreCall κ ω)) (key : κ) : Finset κ :=
  ((uses capacity history).takeWhile (· ≠ key)).toFinset

/-- The value stored last under a key. -/
def lastStored? (history : List (StoreCall κ ω)) (key : κ) : Option ω :=
  history.reverse.findSome? (StoreCall.stored? key)

variable {capacity : Nat} {history : List (StoreCall κ ω)} {call : StoreCall κ ω}
  {store : RecentStore κ ω} {entries : List (κ × ω)}

@[simp] theorem after_append_one (capacity : Nat) (history : List (StoreCall κ ω))
    (call : StoreCall κ ω) :
    after capacity (history ++ [call]) = (call.run (after capacity history)).2 := by
  simp [after]

@[simp] theorem listAfter_append_one (capacity : Nat) (history : List (StoreCall κ ω))
    (call : StoreCall κ ω) :
    listAfter capacity (history ++ [call]) =
      (call.runOnList (max 1 capacity) (listAfter capacity history)).2 := by
  simp [listAfter]

@[simp] theorem uses_append_one (capacity : Nat) (history : List (StoreCall κ ω))
    (call : StoreCall κ ω) :
    uses capacity (history ++ [call]) =
      (call.used? (call.run (after capacity history)).1).toList ++ uses capacity history := by
  have same : ∀ (calls : List (StoreCall κ ω)) (store : RecentStore κ ω) (used : List κ),
      (calls.foldl (fun (store, uses) call =>
        ((call.run store).2, (call.used? (call.run store).1).toList ++ uses)) (store, used)).1 =
        calls.foldl (fun store call => (call.run store).2) store := by
    intro calls
    induction calls with
    | nil => intro store used; rfl
    | cons first rest ih => intro store used; exact ih _ _
  simp only [uses, List.foldl_append, List.foldl_cons, List.foldl_nil, same, after]

@[simp] theorem lastStored?_append_one (history : List (StoreCall κ ω)) (call : StoreCall κ ω)
    (key : κ) :
    lastStored? (history ++ [call]) key = (call.stored? key).or (lastStored? history key) := by
  rw [lastStored?, List.reverse_append, List.reverse_singleton, List.singleton_append,
    List.findSome?_cons]
  cases call.stored? key <;> rfl

/-! ## A store and a list side by side -/

/-- A list of entries shows a store: its keys, the one used last first, with their values. -/
structure Shows (store : RecentStore κ ω) (entries : List (κ × ω)) : Prop where
  keys : entries.map (·.1) = store.recentKeys
  values : ∀ entry ∈ entries, store.value? entry.1 = some entry.2

theorem Shows.empty (capacity : Nat) : (RecentStore.empty capacity : RecentStore κ ω).Shows [] :=
  ⟨rfl, nofun⟩

/-- The value under a key is the one that the list shows. -/
theorem Shows.find?_eq (shows_ : store.Shows entries) (inStep : store.InStep) (key : κ) :
    (entries.find? (·.1 = key)).map (·.2) = store.value? key := by
  cases found : entries.find? (·.1 = key) with
  | some entry =>
      have same : entry.1 = key := by simpa using List.find?_some found
      rw [← same, shows_.values entry (List.mem_of_find?_eq_some found), Option.map_some]
  | none =>
      have absent : key ∉ store.order := by
        rw [← List.mem_reverse, ← recentKeys, ← shows_.keys]
        intro member
        obtain ⟨entry, listed, same⟩ := List.mem_map.mp member
        simpa [same] using List.find?_eq_none.mp found entry listed
      rw [inStep.value?_eq_none absent, Option.map_none]

theorem Shows.insert (shows_ : store.Shows entries) (inStep : store.InStep) (key : κ) (value : ω) :
    (store.insert key value).Shows (((key, value) :: without key entries).take store.capacity) := by
  have keys : (((key, value) :: without key entries).take store.capacity).map (·.1) =
      (store.insert key value).recentKeys := by
    rw [inStep.recentKeys_insert, List.map_take, List.map_cons, map_without, shows_.keys]
  refine ⟨keys, fun entry member => ?_⟩
  have listed : entry.1 ∈ (store.insert key value).order := by
    rw [← List.mem_reverse, ← recentKeys, ← keys]
    exact List.mem_map_of_mem member
  rw [inStep.value?_insert, if_pos listed]
  rcases List.mem_cons.mp (List.mem_of_mem_take member) with rfl | other
  · exact if_pos rfl
  · obtain ⟨shown, ne⟩ := List.mem_filter.mp other
    rw [if_neg (by simpa using ne)]
    exact shows_.values entry shown

theorem Shows.get (shows_ : store.Shows entries) (inStep : store.InStep) {key : κ} {value : ω}
    (found : store.value? key = some value) :
    (store.get key).2.Shows ((key, value) :: without key entries) := by
  refine ⟨?_, fun entry member => ?_⟩
  · rw [get_of_value? found, inStep.recentKeys_touch, List.map_cons, map_without, shows_.keys]
  · rw [value?_get]
    rcases List.mem_cons.mp member with rfl | other
    · exact found
    · exact shows_.values entry (List.mem_of_mem_filter other)

/-- A call reads the same from both, and the list it leaves shows the store that it leaves. -/
theorem Shows.run (shows_ : store.Shows entries) (inStep : store.InStep)
    (call : StoreCall κ ω) :
    (call.run store).1 = (call.runOnList store.capacity entries).1 ∧
      (call.run store).2.Shows (call.runOnList store.capacity entries).2 := by
  cases call with
  | insert key value => exact ⟨rfl, shows_.insert inStep key value⟩
  | get key =>
      simp only [StoreCall.run, StoreCall.runOnList, shows_.find?_eq inStep key]
      cases found : store.value? key with
      | none =>
          rw [get_of_value?_eq_none found]
          exact ⟨rfl, shows_⟩
      | some value => exact ⟨by rw [get_of_value? found], shows_.get inStep found⟩

/-! ## All calls of a history -/

@[simp] theorem capacity_run (store : RecentStore κ ω) (call : StoreCall κ ω) :
    (call.run store).2.capacity = store.capacity := by
  cases call <;> simp [StoreCall.run]

theorem capacity_after (capacity : Nat) (history : List (StoreCall κ ω)) :
    (after capacity history).capacity = max 1 capacity := by
  induction history using List.reverseRecOn with
  | nil => rfl
  | append_singleton before call ih => rw [after_append_one, capacity_run, ih]

/-- What is noted of a history is what the store holds. -/
theorem holds_after (capacity : Nat) (history : List (StoreCall κ ω)) :
    (after capacity history).Holds (uses capacity history) := by
  induction history using List.reverseRecOn with
  | nil => exact .empty capacity
  | append_singleton before call ih =>
      rw [after_append_one, uses_append_one]
      cases call with
      | insert key value => exact ih.insert key value
      | get key =>
          simp only [StoreCall.run]
          cases found : (after capacity before).value? key with
          | none =>
              rw [get_of_value?_eq_none found]
              exact ih
          | some value =>
              have read := ih.get found
              rw [get_of_value? found] at read ⊢
              exact read

theorem agrees_after (capacity : Nat) (history : List (StoreCall κ ω)) :
    (after capacity history).Agrees (lastStored? history) := by
  induction history using List.reverseRecOn with
  | nil => exact .empty capacity _
  | append_singleton before call ih =>
      rw [after_append_one]
      cases call with
      | insert key value =>
          have noted : lastStored? (before ++ [.insert key value]) =
              Function.update (lastStored? before) key (some value) := by
            funext other
            rw [lastStored?_append_one, StoreCall.stored?, Function.update_apply]
            by_cases same : key = other
            · simp [same]
            · simp [same, Ne.symm same]
          rw [noted]
          exact ih.insert (holds_after capacity before).inStep key value
      | get key =>
          have noted : lastStored? (before ++ [.get key]) = lastStored? before := by
            funext other
            rw [lastStored?_append_one]
            rfl
          rw [noted]
          exact ih.get key

theorem shows_after (capacity : Nat) (history : List (StoreCall κ ω)) :
    (after capacity history).Shows (listAfter capacity history) := by
  induction history using List.reverseRecOn with
  | nil => exact .empty capacity
  | append_singleton before call ih =>
      rw [after_append_one, listAfter_append_one, ← capacity_after capacity before]
      exact (ih.run (holds_after capacity before).inStep call).2

/-- A key under which a value has been stored has been used. -/
theorem mem_uses_of_lastStored (capacity : Nat) {key : κ} {value : ω}
    (stored : lastStored? history key = some value) : key ∈ uses capacity history := by
  induction history using List.reverseRecOn with
  | nil => cases stored
  | append_singleton before call ih =>
      rw [uses_append_one]
      rw [lastStored?_append_one] at stored
      cases now : call.stored? key with
      | none =>
          rw [now, Option.none_or] at stored
          exact List.mem_append_right _ (ih stored)
      | some value =>
          cases call with
          | get other => cases now
          | insert other text =>
              simp only [StoreCall.stored?, Option.ite_none_right_eq_some] at now
              simp [StoreCall.used?, now.1]

/-- The value stored last is there as long as fewer others have been used than there is room for. -/
theorem value?_after_iff (capacity : Nat) (history : List (StoreCall κ ω)) {key : κ} {value : ω} :
    (after capacity history).value? key = some value ↔
      lastStored? history key = some value ∧
        (usedSince capacity history key).card < max 1 capacity := by
  have holds := holds_after capacity history
  have agrees := agrees_after capacity history
  have there := holds.value?_isSome key
  rw [capacity_after] at there
  constructor
  · intro found
    exact ⟨agrees key value found, (there.mp (by simp [found])).2⟩
  · rintro ⟨stored, recent⟩
    obtain ⟨found, kept⟩ := Option.isSome_iff_exists.mp
      (there.mpr ⟨mem_uses_of_lastStored capacity stored, recent⟩)
    rw [kept, ← agrees key found kept, stored]

/--
What a store is like after a history of calls, and what a further call does: the queue lists the
keys that have a value, and the store shows what the list of recent entries does.
-/
structure Retains (capacity : Nat) (history : List (StoreCall κ ω)) (store : RecentStore κ ω) :
    Prop where
  /-- Each key with a value stands in the queue once, and no other does. -/
  distinct : store.order.Nodup
  queued : ∀ key, key ∈ store.order ↔ (store.value? key).isSome
  size : store.size = store.order.length
  /-- There is always room for one value, and never more are kept than there is room for. -/
  bounded : store.order.length ≤ max 1 capacity
  shown : store.Shows (listAfter capacity history)
  /-- A further call reads what it reads from the list, and leaves what it leaves of the list. -/
  called : ∀ call : StoreCall κ ω,
    (call.run store).1 = (call.runOnList (max 1 capacity) (listAfter capacity history)).1 ∧
      (call.run store).2.Shows
        (call.runOnList (max 1 capacity) (listAfter capacity history)).2
  /-- A value is read exactly if it is the last one stored and has been used recently enough. -/
  read : ∀ key value, (store.get key).1 = some value ↔
    lastStored? history key = some value ∧
      (usedSince capacity history key).card < max 1 capacity
  /-- A value that is stored is there, whatever was before. -/
  stored : ∀ key value, (store.insert key value).value? key = some value
  /-- To store under a key that has a value replaces that value and no other. -/
  replaced : ∀ key value, (store.value? key).isSome →
    (store.insert key value).order = store.order.erase key ++ [key] ∧
      ∀ other, other ≠ key → (store.insert key value).value? other = store.value? other
  missed : ∀ key, (store.get key).1 = none → (store.get key).2 = store

theorem get_fst (store : RecentStore κ ω) (key : κ) : (store.get key).1 = store.value? key := by
  unfold RecentStore.get
  split <;> simp_all

/-- A value that is stored is there, if there is room for any. -/
theorem InStep.value?_insert_self (inStep : store.InStep) (room : 0 < store.capacity) (key : κ)
    (value : ω) : (store.insert key value).value? key = some value := by
  have listed : key ∈ (store.insert key value).order := by
    rw [← List.mem_reverse, ← recentKeys, inStep.recentKeys_insert]
    obtain ⟨more, same⟩ := Nat.exists_eq_add_one_of_ne_zero (Nat.pos_iff_ne_zero.mp room)
    rw [same, List.take_succ_cons]
    exact List.mem_cons_self
  rw [inStep.value?_insert, if_pos listed, if_pos rfl]

/-- A value that is replaced costs no other its place. -/
theorem InStep.value?_insert_of_mem (inStep : store.InStep) {key : κ} (there : key ∈ store.order)
    (value : ω) {other : κ} (ne : other ≠ key) :
    (store.insert key value).value? other = store.value? other := by
  have order : (store.insert key value).order = store.order.erase key ++ [key] := by
    rw [inStep.insert_of_mem there]
    rfl
  rw [inStep.value?_insert, order, if_neg ne]
  split
  · rfl
  · rename_i gone
    have absent : other ∉ store.order := fun member =>
      gone (List.mem_append_left _ ((List.mem_erase_of_ne ne).mpr member))
    exact (inStep.value?_eq_none absent).symm

/-- Whatever the calls, a store retains the values used last. -/
theorem after_retains (capacity : Nat) (history : List (StoreCall κ ω)) :
    (after capacity history).Retains capacity history := by
  have inStep := (holds_after capacity history).inStep
  have shows_ := shows_after capacity history
  have room := capacity_after capacity history
  constructor
  case distinct => exact inStep.distinct
  case queued => exact fun _ => inStep.mem_order_iff
  case size => simpa [RecentStore.size] using inStep.keys.length_eq
  case bounded => exact room ▸ inStep.bounded
  case shown => exact shows_
  case called =>
    intro call
    rw [← room]
    exact shows_.run inStep call
  case read =>
    intro key value
    rw [get_fst]
    exact value?_after_iff capacity history
  case stored => exact inStep.value?_insert_self (by omega)
  case replaced =>
    intro key value there
    have listed := inStep.mem_order_iff.mpr there
    refine ⟨?_, fun other ne => inStep.value?_insert_of_mem listed value ne⟩
    rw [inStep.insert_of_mem listed]
    rfl
  case missed =>
    intro key nothing
    rw [get_fst] at nothing
    rw [get_of_value?_eq_none nothing]

/-- Reading a value lets another one go instead when there is room for two. -/
example :
    let history : List (StoreCall Nat String) :=
      [.insert 1 "a", .insert 2 "b", .get 1, .insert 3 "c"]
    ((after 2 history).value? 1, (after 2 history).value? 2, (after 2 history).order) =
      (some "a", none, [1, 3]) := by
  decide

end RecentStore

end FlowDiagram
