/-!
# Data.Keyed — finite maps from names, in ascending name order

Everything the program keys by a name (instruments, indicators, percentile labels, config
keys) is listed in ascending order of the name with each name once. `Keyed` carries that order
as a field: every operation that builds a map proves its keys ascend. `insert` places a new key
at its rank and replaces the value of a key already present, so the last write wins; the other
operations keep or drop bindings without moving a key.
-/

namespace Backtest

/-- A finite map from strings to values, listed in ascending key order, each key once. -/
structure Keyed (α : Type) where
  entries : List (String × α)
  /-- The keys ascend strictly, so no key is listed twice. -/
  ascending : (entries.map (·.1)).Pairwise (· < ·)
  deriving Repr

namespace Keyed

variable {α β : Type}

/-- The map with no keys. -/
def empty : Keyed α := ⟨[], List.Pairwise.nil⟩

instance : Inhabited (Keyed α) := ⟨empty⟩

/-! ## Insertion -/

/-- Inserts into an ascending list, replacing an equal key. -/
def insertEntry (k : String) (v : α) : List (String × α) → List (String × α)
  | [] => [(k, v)]
  | (k', v') :: rest =>
    if k < k' then (k, v) :: (k', v') :: rest
    else if k = k' then (k, v) :: rest
    else (k', v') :: insertEntry k v rest

theorem mem_keys_insertEntry {k k' : String} {v : α} {l : List (String × α)} :
    k' ∈ (insertEntry k v l).map (·.1) ↔ k' = k ∨ k' ∈ l.map (·.1) := by
  induction l with
  | nil => simp [insertEntry]
  | cons e rest ih =>
    obtain ⟨k'', v''⟩ := e
    unfold insertEntry
    split
    · simp
    · split
      · rename_i heq
        subst heq
        simp
      · simp only [List.map_cons, List.mem_cons, ih]
        constructor
        · rintro (h | h | h)
          · exact .inr (.inl h)
          · exact .inl h
          · exact .inr (.inr h)
        · rintro (h | h | h)
          · exact .inr (.inl h)
          · exact .inl h
          · exact .inr (.inr h)

/-- Insertion at the rank keeps strictly ascending keys strictly ascending. -/
theorem pairwise_keys_insertEntry (k : String) (v : α) {l : List (String × α)}
    (h : (l.map (·.1)).Pairwise (· < ·)) :
    ((insertEntry k v l).map (·.1)).Pairwise (· < ·) := by
  induction l with
  | nil => simp [insertEntry]
  | cons e rest ih =>
    obtain ⟨k', v'⟩ := e
    rw [List.map_cons, List.pairwise_cons] at h
    obtain ⟨hhead, hrest⟩ := h
    unfold insertEntry
    split
    · -- `k` goes first: it is below `k'`, hence below everything after it
      rename_i hlt
      simp only [List.map_cons, List.pairwise_cons, List.mem_cons]
      refine ⟨?_, hhead, hrest⟩
      rintro x (rfl | hx)
      · exact hlt
      · exact String.lt_trans hlt (hhead x hx)
    · split
      · rename_i heq
        subst heq
        simp only [List.map_cons, List.pairwise_cons]
        exact ⟨hhead, hrest⟩
      · -- `k` goes further down, and `k'` is below it
        rename_i hlt heq
        have hgt : k' < k := by
          refine Decidable.byContradiction fun hge => heq ?_
          exact String.le_antisymm (String.not_lt.mp hge) (String.not_lt.mp hlt)
        simp only [List.map_cons, List.pairwise_cons]
        refine ⟨?_, ih hrest⟩
        intro x hx
        rcases mem_keys_insertEntry.mp hx with rfl | hx
        · exact hgt
        · exact hhead x hx

/-- The map with `k` bound to `v`. -/
def insert (m : Keyed α) (k : String) (v : α) : Keyed α :=
  ⟨insertEntry k v m.entries, pairwise_keys_insertEntry k v m.ascending⟩

/-- The map of a list of bindings, later bindings of a key winning. -/
def ofList (kvs : List (String × α)) : Keyed α :=
  kvs.foldl (fun m (k, v) => m.insert k v) empty

/-! ## Reading -/

/-- The value bound to `k`. -/
def get? (m : Keyed α) (k : String) : Option α :=
  (m.entries.find? (fun e => e.1 == k)).map (·.2)

/-- Whether `k` is bound. -/
def contains (m : Keyed α) (k : String) : Bool :=
  m.entries.any (fun e => e.1 == k)

/-- The keys in ascending order. -/
def keys (m : Keyed α) : List String := m.entries.map (·.1)

/-- The values in ascending key order. -/
def values (m : Keyed α) : List α := m.entries.map (·.2)

/-- The number of keys. -/
def size (m : Keyed α) : Nat := m.entries.length

/-! ## Dropping and rewriting bindings

A map built from another keeps its keys, or some of them, in their order. -/

/-- Bindings listing the keys of an ascending list, in its order, ascend too. -/
theorem pairwise_keys_of_keys_eq {l : List (String × α)} {l' : List (String × β)}
    (hk : l'.map (·.1) = l.map (·.1)) (h : (l.map (·.1)).Pairwise (· < ·)) :
    (l'.map (·.1)).Pairwise (· < ·) :=
  hk ▸ h

theorem keys_filter_sublist (p : String × α → Bool) (l : List (String × α)) :
    List.Sublist ((l.filter p).map (·.1)) (l.map (·.1)) :=
  List.Sublist.map _ List.filter_sublist

theorem keys_filterMap_sublist (f : String → α → Option β) (l : List (String × α)) :
    List.Sublist ((l.filterMap fun e => (f e.1 e.2).map (e.1, ·)).map (·.1)) (l.map (·.1)) := by
  induction l with
  | nil => exact List.Sublist.slnil
  | cons e rest ih =>
    rw [List.filterMap_cons]
    cases f e.1 e.2 with
    | none => exact ih.cons _
    | some w => exact ih.cons_cons _

/-- Rewriting each binding without touching its key keeps the keys. -/
theorem keys_map_of_fst {g : String × α → String × β} (hg : ∀ e, (g e).1 = e.1)
    (l : List (String × α)) : (l.map g).map (·.1) = l.map (·.1) := by
  rw [List.map_map]
  exact List.map_congr_left fun e _ => hg e

/-- The map with `k` unbound. -/
def erase (m : Keyed α) (k : String) : Keyed α :=
  ⟨m.entries.filter (fun e => e.1 != k),
    m.ascending.sublist (keys_filter_sublist _ m.entries)⟩

/-- The bindings that pass a test. -/
def filter (p : String → α → Bool) (m : Keyed α) : Keyed α :=
  ⟨m.entries.filter (fun e => p e.1 e.2),
    m.ascending.sublist (keys_filter_sublist _ m.entries)⟩

/-- The bindings a function keeps, each with the value it gives. -/
def filterMap (f : String → α → Option β) (m : Keyed α) : Keyed β :=
  ⟨m.entries.filterMap (fun e => (f e.1 e.2).map (e.1, ·)),
    m.ascending.sublist (keys_filterMap_sublist f m.entries)⟩

/-- Applies a function to every value. -/
def map (f : α → β) (m : Keyed α) : Keyed β :=
  ⟨m.entries.map fun e => (e.1, f e.2),
    pairwise_keys_of_keys_eq (keys_map_of_fst (g := fun e => (e.1, f e.2)) (fun _ => rfl) _)
      m.ascending⟩

/-- Applies a function to every binding. -/
def mapWithKey (f : String → α → β) (m : Keyed α) : Keyed β :=
  ⟨m.entries.map fun e => (e.1, f e.1 e.2),
    pairwise_keys_of_keys_eq (keys_map_of_fst (g := fun e => (e.1, f e.1 e.2)) (fun _ => rfl) _)
      m.ascending⟩

/-- Numbering bindings by their positions leaves the keys as they were. -/
theorem keys_numbered (f : Nat → String → α → β) (l : List (String × α)) :
    ((l.zip (List.range l.length)).map fun e => (e.1.1, f e.2 e.1.1 e.1.2)).map (·.1) =
      l.map (·.1) := by
  have hzip : (l.zip (List.range l.length)).map Prod.fst = l :=
    List.map_fst_zip (by simp)
  calc _ = ((l.zip (List.range l.length)).map Prod.fst).map (·.1) := by
        rw [List.map_map, List.map_map]
        rfl
    _ = l.map (·.1) := by rw [hzip]

/-- Applies a function to every binding and its position in key order. -/
def mapIdx (f : Nat → String → α → β) (m : Keyed α) : Keyed β :=
  ⟨(m.entries.zip (List.range m.size)).map fun e => (e.1.1, f e.2 e.1.1 e.1.2),
    pairwise_keys_of_keys_eq (keys_numbered f m.entries) m.ascending⟩

/-- A run of a failing function over bindings, each result kept under its key, keeps the keys. -/
theorem keys_mapM_ok {ε : Type} {f : String → α → Except ε β} :
    ∀ {l : List (String × α)} {r : List (String × β)},
      l.mapM (fun e => (f e.1 e.2).map (e.1, ·)) = .ok r → r.map (·.1) = l.map (·.1)
  | [], r, h => by
    cases h
    rfl
  | e :: rest, r, h => by
    rw [List.mapM_cons] at h
    cases hf : f e.1 e.2 with
    | error err =>
      rw [hf] at h
      cases h
    | ok w =>
      rw [hf] at h
      cases hrest : rest.mapM (fun e => (f e.1 e.2).map (e.1, ·)) with
      | error err =>
        rw [hrest] at h
        cases h
      | ok r' =>
        rw [hrest] at h
        cases h
        exact congrArg (List.cons e.1) (keys_mapM_ok hrest)

/-- Applies a function that can fail to every binding in key order; the first failure is the
answer. -/
def mapExcept {ε : Type} (f : String → α → Except ε β) (m : Keyed α) : Except ε (Keyed β) :=
  match h : m.entries.mapM (fun e => (f e.1 e.2).map (e.1, ·)) with
  | .ok r => .ok ⟨r, pairwise_keys_of_keys_eq (keys_mapM_ok h) m.ascending⟩
  | .error err => .error err

end Keyed
end Backtest
