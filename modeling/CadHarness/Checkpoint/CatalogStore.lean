import CadHarness.Checkpoint.DurableCheckpointCatalog
import CadHarness.Lib.Post
import CadHarness.Lib.System
import Mathlib.Logic.Function.Basic

/-!
# Catalogs that share a store

Any number of instances over one root, in one process or several. A call holds the lock from its start to
its end and is one step; a process that dies in a call leaves the files it has replaced by then.
-/

namespace CadHarness.Checkpoint
open CadHarness.Lib

/-- The calls on an instance. -/
inductive CatalogCall where
  | registerCheckpoint (r : DurableCheckpointCatalog.Registration)
  | getRequired (checkpointId : String)
  | snapshot
  | beginRestore (checkpointId : String)
  | complete (checkpointId : String)
  | cancelBeforeReplacement (checkpointId : String)
  | quarantine (checkpointId : String)
  | expire (checkpointId : String)

inductive CatalogReply where
  | record (record : DurableCheckpointRecord)
  | records (records : List DurableCheckpointRecord)
  deriving DecidableEq

namespace CatalogCall
open DurableCheckpointCatalog

def run (P : Primitives) (io : Io) (key : Key) : CatalogCall → CatalogM CatalogReply
  | .registerCheckpoint r => .record <$> DurableCheckpointCatalog.registerCheckpoint P io key r
  | .getRequired id => .record <$> DurableCheckpointCatalog.getRequired P io key id
  | .snapshot => .records <$> DurableCheckpointCatalog.snapshot P io key
  | .beginRestore id => .record <$> DurableCheckpointCatalog.beginRestore P io key id
  | .complete id => .record <$> DurableCheckpointCatalog.complete P io key id
  | .cancelBeforeReplacement id => .record <$> DurableCheckpointCatalog.cancelBeforeReplacement P io key id
  | .quarantine id => .record <$> DurableCheckpointCatalog.quarantine P io key id
  | .expire id => .record <$> DurableCheckpointCatalog.expire P io key id

/-- The outcome that a call records, for the calls that change the state of a record. -/
def outcome? : CatalogCall → Option (String × DurableCheckpointState)
  | .beginRestore id => some (id, .restoring)
  | .complete id => some (id, .consumed)
  | .cancelBeforeReplacement id => some (id, .available)
  | .quarantine id => some (id, .quarantined)
  | .expire id => some (id, .expired)
  | .registerCheckpoint _ | .getRequired _ | .snapshot => none

/-- The outcome of the call is recorded already. -/
def Replays (c : CatalogCall) (payload : CatalogPayload) : Prop :=
  ∃ id state, c.outcome? = some (id, state) ∧
    ∃ record ∈ payload.records, record.checkpointId = id ∧ record.state = state

end CatalogCall

/-- What may change the files: opening the catalog, and a call on an instance. -/
inductive CatalogOperation where
  | new
  | call (c : CatalogCall)

def CatalogOperation.run (P : Primitives) (io : Io) (key : Key) : CatalogOperation → CatalogM Unit
  | .new => DurableCheckpointCatalog.new P io key
  | .call c => (fun _ => ()) <$> c.run P io key

/-- An instance of the catalog. -/
structure Instance where
  key : Key
  highestObservedGeneration : Int
  disposed : Bool := false

/-- The root and the instances over it. -/
structure Store where
  disk : Disk
  instance_ : Nat → Option Instance

/-- The replacements of files in one step. -/
abbrev Written := List (CatalogFile × Disk)

/-- The disk after these replacements. -/
def Disk.after (disk : Disk) (written : Written) : Disk := (written.getLast?.map Prod.snd).getD disk

inductive StoreEvent where
  | opened (i : Nat) (r : Except Exception Unit) (written : Written)
  | called (i : Nat) (c : CatalogCall) (r : Except Exception CatalogReply) (written : Written)
  | crashed (i : Nat) (written : Written)
  | disposed (i : Nat)
  | staged

def StoreEvent.written : StoreEvent → Written
  | .opened _ _ written | .called _ _ _ written | .crashed _ written => written
  | .disposed _ | .staged => []

inductive Store.Step (P : Primitives) : Store → StoreEvent → Store → Prop
  | opened {S : Store} {i : Nat} {key : Key} {io : Io} {s : Session} : S.instance_ i = none →
      Ran (DurableCheckpointCatalog.new P io key) ⟨0, S.disk, []⟩ (.ok ()) s →
      Step P S (.opened i (.ok ()) s.written)
        ⟨s.disk, Function.update S.instance_ i (some ⟨key, s.highestObservedGeneration, false⟩)⟩
  | notOpened {S : Store} {i : Nat} {key : Key} {io : Io} {e : Exception} {s : Session} : S.instance_ i = none →
      Ran (DurableCheckpointCatalog.new P io key) ⟨0, S.disk, []⟩ (.error e) s →
      Step P S (.opened i (.error e) s.written) ⟨s.disk, S.instance_⟩
  | called {S : Store} {i : Nat} {a : Instance} {c : CatalogCall} {io : Io} {r : Except Exception CatalogReply}
      {s : Session} : S.instance_ i = some a → a.disposed = false →
      Ran (c.run P io a.key) ⟨a.highestObservedGeneration, S.disk, []⟩ r s →
      Step P S (.called i c r s.written)
        ⟨s.disk, Function.update S.instance_ i (some { a with highestObservedGeneration := s.highestObservedGeneration })⟩
  | refused {S : Store} {i : Nat} {a : Instance} {c : CatalogCall} : S.instance_ i = some a → a.disposed = true →
      Step P S (.called i c (.error .objectDisposed) []) S
  | crashedOpening {S : Store} {i : Nat} {key : Key} {io : Io} {r : Except Exception Unit} {s : Session}
      {written : Written} : S.instance_ i = none →
      Ran (DurableCheckpointCatalog.new P io key) ⟨0, S.disk, []⟩ r s → written <+: s.written →
      Step P S (.crashed i written) ⟨S.disk.after written, S.instance_⟩
  | crashed {S : Store} {i : Nat} {a : Instance} {c : CatalogCall} {io : Io} {r : Except Exception CatalogReply}
      {s : Session} {written : Written} : S.instance_ i = some a → a.disposed = false →
      Ran (c.run P io a.key) ⟨a.highestObservedGeneration, S.disk, []⟩ r s → written <+: s.written →
      Step P S (.crashed i written) ⟨S.disk.after written, Function.update S.instance_ i none⟩
  | disposed {S : Store} {i : Nat} {a : Instance} : S.instance_ i = some a →
      Step P S (.disposed i) ⟨S.disk, Function.update S.instance_ i (some { a with disposed := true })⟩
  | staged {S : Store} {artifacts : List (String × Artifact)} :
      Step P S .staged ⟨{ S.disk with artifacts := artifacts }, S.instance_⟩

/-- Every interleaving of calls over a root that starts without a catalog. -/
def storeSystem (P : Primitives) : System Store StoreEvent where
  init S := S.disk.catalog = none ∧ S.disk.watermark = none ∧ ∀ i, S.instance_ i = none
  step := Store.Step P

/-- The catalog that a replacement has persisted. -/
def persistedPayload : CatalogFile × Disk → Option CatalogPayload
  | (.catalog, disk) => disk.catalog.map (·.payload)
  | (.watermark, _) => none

/-- The catalogs persisted by a list of replacements, oldest first. -/
def persisted (written : Written) : List CatalogPayload := written.filterMap persistedPayload

/-- The catalogs persisted along a run. -/
def history (tr : List StoreEvent) : List CatalogPayload := persisted (tr.flatMap StoreEvent.written)

end CadHarness.Checkpoint
