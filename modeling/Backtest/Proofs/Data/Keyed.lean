import Mathlib
import Backtest.Data.Keyed
/-!
# Proofs.Data.Keyed — look-ups and key sets of name-keyed maps

A map is its entries: its keys ascend by construction, so two maps with the same entries are
equal (`ext`), each key is listed once (`nodup_keys`), and a binding's key is above the keys
listed before it and below those after it (`lt_of_mem_before`, `lt_of_mem_after`). `insert` places a binding at its rank,
so a look-up of the inserted key finds it and a look-up of any other key is untouched, and every
binding of a map is the answer of a look-up of its key.

* `get?_insert` — the look-up equation of `insert`; `ofList_entries` — a map is rebuilt by
  inserting its entries in order;
* `Spans m ks p` — `m` has exactly the keys `ks` and every binding satisfies `p`; `Spans.insert`,
  `Spans.ofList` build it, `Spans.exists_get?`, `Spans.perm` and `Spans.of_mem_values` read it;
* `get?_mapWithKey`, `get?_of_mem` — look-ups through a relabelled map, and of a binding's key;
* `keys_mapIdx`, `get?_mapIdx` — a map whose bindings are relabelled together with their
  position keeps its keys, and a look-up finds the relabelled binding with some position;
* `mapExcept_eq_ok_iff`, `mapExcept_eq_error_iff` — a rewrite that can fail succeeds and fails
  as the run over the entries does.
-/

namespace Backtest
namespace Keyed

variable {α β : Type}

/-! ## A map is its entries -/

@[ext] theorem ext {m m' : Keyed α} (h : m.entries = m'.entries) : m = m' := by
  cases m
  cases m'
  cases h
  rfl

/-- Ascending keys are listed once. -/
theorem nodup_keys (m : Keyed α) : m.keys.Nodup :=
  m.ascending.nodup

section Split

variable {m : Keyed α} {pre post : List (String × α)} {x y : String × α}

/-- Split at a binding `x`, the bindings before it have smaller keys. -/
theorem lt_of_mem_before (h : m.entries = pre ++ x :: post) (hy : y ∈ pre) : y.1 < x.1 := by
  have hasc := m.ascending
  rw [h, List.map_append, List.pairwise_append] at hasc
  exact hasc.2.2 _ (List.mem_map.mpr ⟨y, hy, rfl⟩) _ (by simp)

/-- Split at a binding `x`, the bindings after it have greater keys. -/
theorem lt_of_mem_after (h : m.entries = pre ++ x :: post) (hy : y ∈ post) : x.1 < y.1 := by
  have hasc := m.ascending
  rw [h, List.map_append, List.pairwise_append, List.map_cons, List.pairwise_cons] at hasc
  exact hasc.2.1.1 _ (List.mem_map.mpr ⟨y, hy, rfl⟩)

end Split

/-! ## Insertion -/

theorem find?_insertEntry_self (k : String) (v : α) (l : List (String × α)) :
    (insertEntry k v l).find? (fun e => e.1 == k) = some (k, v) := by
  induction l with
  | nil => simp [insertEntry]
  | cons e rest ih =>
    obtain ⟨k', v'⟩ := e
    unfold insertEntry
    split
    · simp
    · split
      · simp
      · -- the inserted binding goes past `k'`, which is not `k`
        rename_i hlt heq
        simp [Ne.symm heq, ih]

theorem find?_insertEntry_ne {k k' : String} (h : k' ≠ k) (v : α) (l : List (String × α)) :
    (insertEntry k v l).find? (fun e => e.1 == k') = l.find? (fun e => e.1 == k') := by
  induction l with
  | nil => simp [insertEntry, Ne.symm h]
  | cons e rest ih =>
    obtain ⟨k'', v''⟩ := e
    unfold insertEntry
    split
    · simp [Ne.symm h]
    · split
      · -- the binding of `k` is replaced, and `k` is not what is looked up
        rename_i heq
        subst heq
        simp [Ne.symm h]
      · simp [List.find?_cons, ih]

@[simp] theorem get?_insert (m : Keyed α) (k k' : String) (v : α) :
    (m.insert k v).get? k' = if k' = k then some v else m.get? k' := by
  unfold get? insert
  split
  · rename_i h
    subst h
    simp [find?_insertEntry_self]
  · rename_i h
    simp [find?_insertEntry_ne h]

theorem mem_keys_insert {m : Keyed α} {k k' : String} {v : α} :
    k' ∈ (m.insert k v).keys ↔ k' = k ∨ k' ∈ m.keys :=
  mem_keys_insertEntry

/-- A key above every key of the list is inserted last. -/
theorem insertEntry_of_lt {k : String} {v : α} {l : List (String × α)}
    (h : ∀ k' ∈ l.map (·.1), k' < k) : insertEntry k v l = l ++ [(k, v)] := by
  induction l with
  | nil => rfl
  | cons e l ih =>
    obtain ⟨k', v'⟩ := e
    have hk' : k' < k := h k' (by simp)
    rw [insertEntry, if_neg (lt_asymm hk'), if_neg (ne_of_gt hk'),
      ih fun k'' hk'' => h k'' (by simp_all), List.cons_append]

/-- A map is rebuilt by inserting its entries in order. -/
theorem ofList_entries (m : Keyed α) : ofList m.entries = m := by
  -- inserting in ascending order appends each entry to those before it
  suffices hfold : ∀ (pre l : List (String × α)) (acc : Keyed α), acc.entries = pre →
      ((pre ++ l).map (·.1)).Pairwise (· < ·) →
      (l.foldl (fun m e => m.insert e.1 e.2) acc).entries = pre ++ l from
    ext (hfold [] m.entries empty rfl m.ascending)
  intro pre l
  induction l generalizing pre with
  | nil =>
    intro acc hacc _
    simpa using hacc
  | cons e l ih =>
    intro acc hacc hl
    obtain ⟨k, v⟩ := e
    have hlast : insertEntry k v pre = pre ++ [(k, v)] := by
      apply insertEntry_of_lt
      intro k' hk'
      rw [List.map_append, List.pairwise_append] at hl
      exact hl.2.2 k' hk' k (by simp)
    have hins : (acc.insert k v).entries = pre ++ [(k, v)] := by
      rw [← hlast, ← hacc]
      rfl
    rw [List.foldl_cons, ih (pre ++ [(k, v)]) _ hins (by simpa using hl), List.append_assoc,
      List.singleton_append]

/-! ## Look-ups and entries -/

theorem mem_entries_of_get? {m : Keyed α} {k : String} {v : α} (h : m.get? k = some v) :
    (k, v) ∈ m.entries := by
  unfold get? at h
  obtain ⟨e, he, rfl⟩ := Option.map_eq_some_iff.mp h
  have hk : e.1 = k := by simpa using List.find?_some he
  rw [← hk]
  exact List.mem_of_find?_eq_some he

theorem exists_get?_of_mem_keys {m : Keyed α} {k : String} (h : k ∈ m.keys) :
    ∃ v, m.get? k = some v := by
  unfold get?
  cases hf : m.entries.find? (fun e => e.1 == k) with
  | some e => exact ⟨e.2, rfl⟩
  | none =>
    obtain ⟨e, he, rfl⟩ := List.mem_map.mp h
    have := List.find?_eq_none.mp hf e he
    simp at this

/-- In a list that names each key once, a search for the key of a binding finds that binding. -/
theorem find?_of_mem {l : List (String × α)} {k : String} {v : α} (hnd : (l.map (·.1)).Nodup)
    (h : (k, v) ∈ l) : l.find? (fun e => e.1 == k) = some (k, v) := by
  induction l with
  | nil => cases h
  | cons e rest ih =>
    rw [List.map_cons, List.nodup_cons] at hnd
    rcases List.mem_cons.mp h with rfl | hmem
    · simp
    · -- the head is another key: `k` occurs later, and the head's key does not
      have hne : e.1 ≠ k := by
        intro he
        exact hnd.1 (List.mem_map.mpr ⟨_, hmem, he.symm⟩)
      simp only [List.find?_cons, beq_eq_false_iff_ne.mpr hne]
      exact ih hnd.2 hmem

/-- Every binding of a map is what a look-up of its key finds. -/
theorem get?_of_mem {m : Keyed α} {k : String} {v : α} (h : (k, v) ∈ m.entries) :
    m.get? k = some v := by
  unfold get?
  rw [find?_of_mem m.nodup_keys h]
  rfl

theorem mem_values_of_get? {m : Keyed α} {k : String} {v : α} (h : m.get? k = some v) :
    v ∈ m.values :=
  List.mem_map.mpr ⟨_, mem_entries_of_get? h, rfl⟩

/-- A key is bound exactly when a look-up of it finds something. -/
theorem mem_keys_iff_get? {m : Keyed α} {k : String} : k ∈ m.keys ↔ (m.get? k).isSome := by
  constructor
  · intro h
    obtain ⟨v, hv⟩ := exists_get?_of_mem_keys h
    simp [hv]
  · intro h
    obtain ⟨v, hv⟩ := Option.isSome_iff_exists.mp h
    exact List.mem_map.mpr ⟨_, mem_entries_of_get? hv, rfl⟩

/-! ## Removal -/

@[simp] theorem get?_erase (m : Keyed α) (k k' : String) :
    (m.erase k).get? k' = if k' = k then none else m.get? k' := by
  unfold get? erase
  dsimp only
  rw [List.find?_filter]
  split
  · -- no binding that survives has the removed key
    rename_i h
    subst h
    simp
  · rename_i h
    congr 1
    apply List.find?_congr
    intro e _
    by_cases he : e.1 = k' <;> simp [he, h]

theorem mem_keys_erase {m : Keyed α} {k k' : String} :
    k' ∈ (m.erase k).keys ↔ k' ≠ k ∧ k' ∈ m.keys := by
  rw [mem_keys_iff_get?, mem_keys_iff_get?, get?_erase]
  split <;> simp_all

/-- Removing a key that is not bound changes nothing. -/
theorem erase_of_not_mem {m : Keyed α} {k : String} (h : k ∉ m.keys) : m.erase k = m := by
  ext1
  show m.entries.filter (fun e => e.1 != k) = m.entries
  rw [List.filter_eq_self.mpr]
  intro e he
  have hne : e.1 ≠ k := fun heq => h (List.mem_map.mpr ⟨e, he, heq⟩)
  simpa using hne

@[simp] theorem keys_mapWithKey (f : String → α → β) (m : Keyed α) :
    (m.mapWithKey f).keys = m.keys := by
  simp [mapWithKey, keys, Function.comp_def]

theorem get?_mapWithKey (f : String → α → β) (m : Keyed α) (k : String) :
    (m.mapWithKey f).get? k = (m.get? k).map (f k) := by
  unfold get? mapWithKey
  dsimp only
  rw [List.find?_map]
  cases hf : m.entries.find? (fun e => e.1 == k) with
  | none => simp [hf]
  | some e =>
    -- the binding found has the key looked up
    have hk : e.1 = k := by simpa using List.find?_some hf
    simp [hf, hk]

/-! ## Numbered bindings -/

@[simp] theorem keys_mapIdx (f : Nat → String → α → β) (m : Keyed α) :
    (m.mapIdx f).keys = m.keys :=
  keys_numbered f m.entries

/-- Numbering from `n`, the first binding of `k` gets some number `i`, and a search for `k` finds
it relabelled with that number. -/
theorem find?_numbered (f : Nat → String → α → β) (l : List (String × α)) (n : Nat) {k : String}
    {v : α} (h : (l.find? (fun e => e.1 == k)).map (·.2) = some v) :
    ∃ i, (((l.zip (List.range' n l.length)).map fun e => (e.1.1, f e.2 e.1.1 e.1.2)).find?
      (fun e => e.1 == k)).map (·.2) = some (f i k v) := by
  induction l generalizing n with
  | nil => simp at h
  | cons e rest ih =>
    obtain ⟨k', v'⟩ := e
    rw [List.length_cons, List.range'_succ, List.zip_cons_cons, List.map_cons]
    by_cases hk : k' = k
    · -- the head binds `k`: it is found, with the first number
      subst hk
      simp only [List.find?_cons, beq_self_eq_true, Option.map_some] at h
      cases h
      exact ⟨n, by simp⟩
    · -- the head binds another key, which its relabelling keeps
      have hrest : (rest.find? (fun e => e.1 == k)).map (·.2) = some v := by
        simpa [List.find?_cons, hk] using h
      obtain ⟨i, hi⟩ := ih (n + 1) hrest
      exact ⟨i, by simpa [List.find?_cons, hk] using hi⟩

/-- A look-up in a map relabelled by position finds the relabelled binding, at some position. -/
theorem get?_mapIdx (f : Nat → String → α → β) {m : Keyed α} {k : String} {v : α}
    (h : m.get? k = some v) : ∃ i, (m.mapIdx f).get? k = some (f i k v) := by
  have hfind := find?_numbered f m.entries 0 h
  rw [← List.range_eq_range'] at hfind
  exact hfind

/-! ## Rewriting with a function that can fail -/

section MapExcept

variable {ε : Type} {f : String → α → Except ε β} {m : Keyed α}

/-- The map is rewritten exactly when the run over its entries succeeds, with those entries. -/
theorem mapExcept_eq_ok_iff {r : Keyed β} :
    m.mapExcept f = .ok r ↔
      m.entries.mapM (fun e => (f e.1 e.2).map (e.1, ·)) = .ok r.entries := by
  unfold mapExcept
  split
  next r' hrun =>
    simp only [hrun, Except.ok.injEq]
    constructor
    · rintro rfl
      rfl
    · intro h
      exact ext h
  next err hrun => simp [hrun]

/-- The map fails exactly when the run over its entries does, with its first failure. -/
theorem mapExcept_eq_error_iff {err : ε} :
    m.mapExcept f = .error err ↔
      m.entries.mapM (fun e => (f e.1 e.2).map (e.1, ·)) = .error err := by
  unfold mapExcept
  split
  next r' hrun => simp [hrun]
  next err' hrun => simp only [hrun, Except.error.injEq]

end MapExcept

/-! ## Maps with a known key set -/

/-- `m` has exactly the keys listed in `ks`, and every binding it holds satisfies `p`. -/
structure Spans (m : Keyed α) (ks : List String) (p : String → α → Prop) : Prop where
  mem_keys : ∀ k, k ∈ m.keys ↔ k ∈ ks
  lookup : ∀ k v, m.get? k = some v → p k v

namespace Spans

variable {m : Keyed α} {ks ks' : List String} {p q : String → α → Prop}

theorem empty : Spans (Keyed.empty : Keyed α) [] p :=
  ⟨by simp [Keyed.empty, keys], by simp [Keyed.empty, get?]⟩

theorem congr (h : m.Spans ks p) (hks : ∀ k, k ∈ ks ↔ k ∈ ks') : m.Spans ks' p :=
  ⟨fun k => (h.mem_keys k).trans (hks k), h.lookup⟩

theorem mono (h : m.Spans ks p) (hpq : ∀ k v, k ∈ ks → p k v → q k v) : m.Spans ks q := by
  refine ⟨h.mem_keys, fun k v hk => hpq k v ?_ (h.lookup k v hk)⟩
  exact (h.mem_keys k).mp (List.mem_map.mpr ⟨_, mem_entries_of_get? hk, rfl⟩)

/-- Inserting `k` adds it to the keys; the new binding satisfies `q`, and every other binding,
which satisfied `p`, satisfies `q` too. -/
theorem insert (h : m.Spans ks p) {k : String} {v : α} (hv : q k v)
    (hq : ∀ k' v', k' ≠ k → p k' v' → q k' v') : (m.insert k v).Spans (k :: ks) q := by
  refine ⟨fun k' => ?_, fun k' v' hk' => ?_⟩
  · rw [mem_keys_insert, h.mem_keys, List.mem_cons]
  · rw [get?_insert] at hk'
    split at hk'
    · rename_i heq
      cases hk'
      rw [heq]
      exact hv
    · rename_i hne
      exact hq k' v' hne (h.lookup k' v' hk')

/-- A map built from a list of bindings, each satisfying `p`, spans their keys. -/
theorem ofList {kvs : List (String × α)} (hkvs : ∀ e ∈ kvs, p e.1 e.2) :
    (Keyed.ofList kvs).Spans (kvs.map (·.1)) p := by
  rw [show Keyed.ofList kvs = kvs.foldl (fun m e => m.insert e.1 e.2) Keyed.empty from rfl]
  -- generalised over the map the bindings are inserted into
  suffices ∀ (m : Keyed α) (ks : List String), m.Spans ks p →
      (kvs.foldl (fun m e => m.insert e.1 e.2) m).Spans (ks ++ kvs.map (·.1)) p by
    simpa using this Keyed.empty [] Spans.empty
  induction kvs with
  | nil => simp
  | cons e rest ih =>
    intro m ks hm
    have he : p e.1 e.2 := hkvs e (List.mem_cons_self ..)
    have hm' : (m.insert e.1 e.2).Spans (ks ++ [e.1]) p :=
      (hm.insert he fun _ _ _ h => h).congr (by simp [or_comm])
    simpa using ih (fun x hx => hkvs x (List.mem_cons_of_mem _ hx)) _ _ hm'

theorem exists_get? (h : m.Spans ks p) {k : String} (hk : k ∈ ks) :
    ∃ v, m.get? k = some v ∧ p k v := by
  obtain ⟨v, hv⟩ := exists_get?_of_mem_keys ((h.mem_keys k).mpr hk)
  exact ⟨v, hv, h.lookup k v hv⟩

theorem perm (h : m.Spans ks p) (hks : ks.Nodup) : m.keys.Perm ks :=
  (List.perm_ext_iff_of_nodup m.nodup_keys hks).mpr h.mem_keys

/-- Every value of the map belongs to one of the keys and satisfies `p` there. -/
theorem of_mem_values (h : m.Spans ks p) {v : α} (hv : v ∈ m.values) : ∃ k ∈ ks, p k v := by
  obtain ⟨⟨k, v'⟩, he, rfl⟩ := List.mem_map.mp hv
  have hget := get?_of_mem he
  exact ⟨k, (h.mem_keys k).mp (List.mem_map.mpr ⟨_, he, rfl⟩), h.lookup k v' hget⟩

end Spans

end Keyed
end Backtest
