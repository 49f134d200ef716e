import Mathlib
import Backtest.Market.Registry
import Backtest.Proofs.Data.Keyed
/-!
# Proofs.Market.Registry — the active dataset of a registry

A registry reached from the empty one by calls is *consistent*: its active identifier, if any,
is registered, and every registered identifier holds the dataset last inserted under it. Each
call keeps this, failed calls included, so every run from the empty registry ends consistent.

* `lastInserted id ops` — the dataset of the last insertion under `id` among the calls `ops`;
* `switchTo_of_not_mem`, `unload_of_not_mem` — a call on an unknown identifier fails and leaves
  any registry as it was, although unloading takes the entry out before it checks;
* `Consistent r ops` — the invariant, `ops` being the calls that led to `r`;
  `Consistent.call` is the step lemma and `Consistent.run` the run lemma;
* `run_active` — for every sequence of calls from the empty registry: the active identifier is
  registered, the active dataset is the one last inserted under it, and unloading clears the
  active identifier exactly when it names it.
-/

namespace Backtest
namespace Registry

variable {r : Registry} {id : String} {ds : Dataset}

/-! ## The last insertion under an identifier -/

/-- One call's effect on the last dataset inserted under `id`. -/
def insertedStep (id : String) (last : Option Dataset) : Op → Option Dataset
  | .insert i ds => if i = id then some ds else last
  | _ => last

/-- The dataset the last insertion under `id` among `ops` registered. -/
def lastInserted (id : String) (ops : List Op) : Option Dataset :=
  ops.foldl (insertedStep id) none

@[simp] theorem lastInserted_nil (id : String) : lastInserted id [] = none := rfl

@[simp] theorem lastInserted_append_singleton (id : String) (ops : List Op) (op : Op) :
    lastInserted id (ops ++ [op]) = insertedStep id (lastInserted id ops) op := by
  simp [lastInserted, List.foldl_append]

/-! ## One call -/

@[simp] theorem call_insert (i : String) : (r.call (.insert i ds)).2 = r.insert i ds := rfl

@[simp] theorem call_switchTo : (r.call (.switchTo id)).2 = (r.switchTo id).2 := rfl

@[simp] theorem call_get : (r.call (.get id)).2 = r := rfl

@[simp] theorem call_unload : (r.call (.unload id)).2 = (r.unload id).2 := rfl

@[simp] theorem call_active : (r.call .active).2 = r := rfl

theorem mem_identifiers_iff : id ∈ r.identifiers ↔ (r.datasets.get? id).isSome :=
  Keyed.mem_keys_iff_get?

theorem get?_eq_none_iff : r.datasets.get? id = none ↔ id ∉ r.identifiers := by
  simp [mem_identifiers_iff]

theorem mem_identifiers_of_get? (h : r.datasets.get? id = some ds) : id ∈ r.identifiers := by
  simp [mem_identifiers_iff, h]

theorem switchTo_of_get? (h : r.datasets.get? id = some ds) :
    r.switchTo id = (.ok ds, { r with active := some id }) := by
  simp [switchTo, get, h]

/-- Switching to an unknown identifier fails and changes nothing. -/
theorem switchTo_of_not_mem (h : id ∉ r.identifiers) :
    r.switchTo id = (.error (.unknownDataset id), r) := by
  simp [switchTo, get, get?_eq_none_iff.mpr h]

theorem unload_of_get? (h : r.datasets.get? id = some ds) :
    r.unload id =
      (.ok (), ⟨r.datasets.erase id, if r.active = some id then none else r.active⟩) := by
  simp only [unload, h]
  split <;> simp_all

/-- Unloading an unknown identifier fails and changes nothing: taking out an entry that is not
there leaves the datasets as they were. -/
theorem unload_of_not_mem (h : id ∉ r.identifiers) :
    r.unload id = (.error (.unknownDataset id), r) := by
  have herase : r.datasets.erase id = r.datasets := Keyed.erase_of_not_mem h
  simp [unload, get?_eq_none_iff.mpr h, herase]

/-! ## The invariant -/

/-- A registry that the calls `ops` led to from the empty one: the active identifier is
registered, and every registered dataset is the last one inserted under its identifier. -/
structure Consistent (r : Registry) (ops : List Op) : Prop where
  active_mem : ∀ a, r.active = some a → a ∈ r.identifiers
  get?_eq : ∀ i ds, r.datasets.get? i = some ds → lastInserted i ops = some ds

theorem consistent_empty : Consistent empty [] where
  active_mem a h := by simp [empty] at h
  get?_eq i ds h := by simp [empty, Keyed.empty, Keyed.get?] at h

namespace Consistent

variable {ops : List Op}

/-- A call that changes neither the datasets nor the active identifier keeps consistency. -/
theorem of_unchanged (h : Consistent r ops) {op : Op}
    (hop : ∀ i last, insertedStep i last op = last) : Consistent r (ops ++ [op]) where
  active_mem := h.active_mem
  get?_eq i ds hget := by
    rw [lastInserted_append_singleton, hop]
    exact h.get?_eq i ds hget

theorem insert (h : Consistent r ops) (i : String) (ds : Dataset) :
    Consistent (r.insert i ds) (ops ++ [.insert i ds]) where
  active_mem a ha := by
    simp only [Registry.insert, Option.some.injEq] at ha
    subst ha
    exact Keyed.mem_keys_insert.mpr (.inl rfl)
  get?_eq i' ds' hget := by
    simp only [Registry.insert, Keyed.get?_insert] at hget
    rw [lastInserted_append_singleton]
    by_cases hi : i' = i
    · subst hi
      simpa [insertedStep] using hget
    · simp only [if_neg hi] at hget
      simpa [insertedStep, Ne.symm hi] using h.get?_eq i' ds' hget

theorem switchTo (h : Consistent r ops) (i : String) :
    Consistent (r.switchTo i).2 (ops ++ [.switchTo i]) := by
  cases hget : r.datasets.get? i with
  | none =>
    rw [switchTo_of_not_mem (get?_eq_none_iff.mp hget)]
    exact h.of_unchanged (fun _ _ => rfl)
  | some ds =>
    rw [switchTo_of_get? hget]
    refine ⟨fun a ha => ?_, fun i' ds' hget' => ?_⟩
    · -- the new active identifier was just found registered
      simp only [Option.some.injEq] at ha
      subst ha
      exact mem_identifiers_of_get? hget
    · simpa [insertedStep] using h.get?_eq i' ds' hget'

theorem unload (h : Consistent r ops) (i : String) :
    Consistent (r.unload i).2 (ops ++ [.unload i]) := by
  cases hget : r.datasets.get? i with
  | none =>
    rw [unload_of_not_mem (get?_eq_none_iff.mp hget)]
    exact h.of_unchanged (fun _ _ => rfl)
  | some ds =>
    rw [unload_of_get? hget]
    refine ⟨fun a ha => ?_, fun i' ds' hget' => ?_⟩
    · -- an active identifier that survives is not the removed one
      dsimp only at ha
      split at ha
      · simp at ha
      · rename_i hne
        have hai : a ≠ i := fun hai => hne (hai ▸ ha)
        exact Keyed.mem_keys_erase.mpr ⟨hai, h.active_mem a ha⟩
    · simp only [Keyed.get?_erase] at hget'
      split at hget'
      · simp at hget'
      · simpa [insertedStep] using h.get?_eq i' ds' hget'

/-- The step lemma: every call keeps consistency. -/
theorem call (h : Consistent r ops) : ∀ op, Consistent (r.call op).2 (ops ++ [op])
  | .insert i ds => h.insert i ds
  | .switchTo i => h.switchTo i
  | .get _ => h.of_unchanged (fun _ _ => rfl)
  | .unload i => h.unload i
  | .active => h.of_unchanged (fun _ _ => rfl)

/-- The run lemma: a sequence of calls keeps consistency. -/
theorem run (h : Consistent r ops) (more : List Op) : Consistent (r.run more) (ops ++ more) := by
  induction more generalizing r ops with
  | nil => simpa [Registry.run] using h
  | cons op more ih =>
    have hnext := ih (h.call op)
    simpa [Registry.run] using hnext

/-- The active dataset of a consistent registry is the one last inserted under the active
identifier. -/
theorem activeDataset_eq (h : Consistent r ops) {a : String} (ha : r.active = some a) :
    ∃ ds, r.activeDataset = some ds ∧ lastInserted a ops = some ds := by
  obtain ⟨ds, hds⟩ := Keyed.exists_get?_of_mem_keys (h.active_mem a ha)
  exact ⟨ds, by simp [activeDataset, ha, hds], h.get?_eq a ds hds⟩

theorem activeDataset_isSome (h : Consistent r ops) :
    r.activeDataset.isSome ↔ r.active.isSome := by
  cases ha : r.active with
  | none => simp [activeDataset, ha]
  | some a =>
    obtain ⟨ds, hds, -⟩ := h.activeDataset_eq ha
    simp [hds]

/-- In a consistent registry, unloading clears the active identifier exactly when it names it:
an unknown identifier cannot be the active one. -/
theorem unload_active (h : Consistent r ops) (i : String) :
    (r.unload i).2.active = if r.active = some i then none else r.active := by
  cases hget : r.datasets.get? i with
  | none =>
    have hi : i ∉ r.identifiers := get?_eq_none_iff.mp hget
    have hne : r.active ≠ some i := fun ha => hi (h.active_mem i ha)
    rw [unload_of_not_mem hi, if_neg hne]
  | some ds => rw [unload_of_get? hget]

end Consistent

/-- Over every sequence of calls from the empty registry: the active identifier is registered;
there is an active dataset exactly when there is an active identifier, and it is the dataset
last inserted under it; switching to or unloading an identifier that is not registered fails
and leaves the registry as it was; and unloading clears the active identifier exactly when it
names it. -/
theorem run_active (ops : List Op) :
    let r := empty.run ops
    (∀ a, r.active = some a → a ∈ r.identifiers) ∧
    (r.activeDataset.isSome ↔ r.active.isSome) ∧
    (∀ a, r.active = some a →
      ∃ ds, r.activeDataset = some ds ∧ lastInserted a ops = some ds) ∧
    (∀ id, id ∉ r.identifiers →
      r.switchTo id = (.error (.unknownDataset id), r) ∧
      r.unload id = (.error (.unknownDataset id), r)) ∧
    (∀ id, (r.unload id).2.active = if r.active = some id then none else r.active) := by
  intro r
  have h : Consistent r ops := by simpa using consistent_empty.run ops
  exact ⟨h.active_mem, h.activeDataset_isSome, fun a ha => h.activeDataset_eq ha,
    fun id hid => ⟨switchTo_of_not_mem hid, unload_of_not_mem hid⟩, h.unload_active⟩

end Registry
end Backtest
