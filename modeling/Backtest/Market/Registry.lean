import Backtest.Market.Dataset
/-!
# Market.Registry — named datasets with one active entry

A registry keeps datasets under identifiers and remembers which one is active. Inserting
replaces a dataset of the same identifier and makes it active; switching activates a registered
identifier; unloading removes one, and clears the active identifier only if it was that one.

The calls that change a registry answer together with the registry as they leave it, failed
calls included: switching looks the identifier up before it changes anything, while unloading
takes the entry out first and fails when there was none.
-/

namespace Backtest

/-- Datasets by identifier, with the active identifier. -/
structure Registry where
  datasets : Keyed Dataset
  active : Option String

namespace Registry

/-- The registry with nothing in it. -/
def empty : Registry := ⟨Keyed.empty, none⟩

/-- Registers a dataset under an identifier and activates it. -/
def insert (r : Registry) (id : String) (ds : Dataset) : Registry :=
  ⟨r.datasets.insert id ds, some id⟩

/-- The dataset registered under an identifier. -/
def get (r : Registry) (id : String) : Except LookupError Dataset :=
  match r.datasets.get? id with
  | some ds => .ok ds
  | none => .error (.unknownDataset id)

/-- Activates a registered identifier, answering its dataset. -/
def switchTo (r : Registry) (id : String) : Except LookupError Dataset × Registry :=
  match r.get id with
  | .ok ds => (.ok ds, { r with active := some id })
  | .error e => (.error e, r)

/-- Removes an identifier: its entry is taken out, the call fails if there was none, and
otherwise the active identifier is cleared if it was this one. -/
def unload (r : Registry) (id : String) : Except LookupError Unit × Registry :=
  let removed := r.datasets.get? id
  let r' : Registry := { r with datasets := r.datasets.erase id }
  match removed with
  | none => (.error (.unknownDataset id), r')
  | some _ => (.ok (), if r'.active = some id then { r' with active := none } else r')

/-- The active dataset. -/
def activeDataset (r : Registry) : Option Dataset :=
  r.active.bind r.datasets.get?

/-- The registered identifiers, ascending. -/
def identifiers (r : Registry) : List String := r.datasets.keys

/-- A call on a registry. -/
inductive Op where
  | insert (id : String) (ds : Dataset)
  | switchTo (id : String)
  | get (id : String)
  | unload (id : String)
  | active

/-- Makes a call: its answer (a dataset handed out, nothing, or a failed look-up) and the
registry as the call leaves it. -/
def call (r : Registry) : Op → Except LookupError (Option Dataset) × Registry
  | .insert id ds => (.ok (some ds), r.insert id ds)
  | .switchTo id => ((r.switchTo id).1.map some, (r.switchTo id).2)
  | .get id => ((r.get id).map some, r)
  | .unload id => ((r.unload id).1.map fun _ => none, (r.unload id).2)
  | .active => (.ok r.activeDataset, r)

/-- The registry after a sequence of calls. -/
def run (r : Registry) (ops : List Op) : Registry :=
  ops.foldl (fun r op => (r.call op).2) r

end Registry
end Backtest
